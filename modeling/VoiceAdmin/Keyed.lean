namespace VoiceAdmin

/-- Things by id. The entries stand in the order of their ids, so equal tables have equal entries. -/
structure Keyed (α : Type) where
  entries : List (String × α) := []
  sorted : entries.Pairwise (·.1 < ·.1) := by simp
deriving DecidableEq

namespace Keyed

variable {α β : Type}

def empty : Keyed α := {}

instance : Inhabited (Keyed α) := ⟨empty⟩

/-- Puts an entry at the place of its id; an entry with that id gives way. -/
def insertEntry (id : String) (new : α) : List (String × α) → List (String × α)
  | [] => [(id, new)]
  | (k, old) :: rest =>
    if id < k then (id, new) :: (k, old) :: rest
    else if id = k then (id, new) :: rest
    else (k, old) :: insertEntry id new rest

theorem mem_insertEntry {id : String} {new : α} {entries : List (String × α)} {e : String × α}
    (h : e ∈ insertEntry id new entries) : e = (id, new) ∨ e ∈ entries := by
  induction entries with
  | nil => simpa [insertEntry] using h
  | cons head rest ih =>
    obtain ⟨k, old⟩ := head
    rw [insertEntry] at h
    split at h
    · simpa using h
    · split at h
      · rcases List.mem_cons.mp h with h | h
        · exact .inl h
        · exact .inr (List.mem_cons_of_mem _ h)
      · rcases List.mem_cons.mp h with h | h
        · exact .inr (h ▸ List.mem_cons_self)
        · exact (ih h).imp_right (List.mem_cons_of_mem _)

theorem sorted_insertEntry {id : String} {new : α} {entries : List (String × α)}
    (h : entries.Pairwise (·.1 < ·.1)) : (insertEntry id new entries).Pairwise (·.1 < ·.1) := by
  induction entries with
  | nil => simp [insertEntry]
  | cons head rest ih =>
    obtain ⟨k, old⟩ := head
    obtain ⟨hk, hr⟩ := List.pairwise_cons.mp h
    rw [insertEntry]
    split
    · rename_i hlt
      refine List.pairwise_cons.mpr ⟨fun e he => ?_, h⟩
      rcases List.mem_cons.mp he with rfl | he
      · exact hlt
      · exact String.lt_trans hlt (hk e he)
    · split
      · rename_i heq
        exact List.pairwise_cons.mpr ⟨fun e he => heq ▸ hk e he, hr⟩
      · rename_i hle hne
        refine List.pairwise_cons.mpr ⟨fun e he => ?_, ih hr⟩
        rcases mem_insertEntry he with rfl | he
        · exact Std.lt_of_le_of_ne (String.not_lt.mp hle) (Ne.symm hne)
        · exact hk e he

def insert (t : Keyed α) (id : String) (new : α) : Keyed α where
  entries := insertEntry id new t.entries
  sorted := sorted_insertEntry t.sorted

def erase (t : Keyed α) (id : String) : Keyed α where
  entries := t.entries.filter fun e => e.1 != id
  sorted := t.sorted.filter _

def find? (t : Keyed α) (id : String) : Option α :=
  t.entries.lookup id

def modifyEntry (id : String) (change : α → α) (e : String × α) : String × α :=
  if e.1 = id then (e.1, change e.2) else e

theorem modifyEntry_fst (id : String) (change : α → α) (e : String × α) :
    (modifyEntry id change e).1 = e.1 := by
  unfold modifyEntry
  split <;> rfl

/-- Changes what has the given id, if there is anything. -/
def modify (t : Keyed α) (id : String) (change : α → α) : Keyed α where
  entries := t.entries.map (modifyEntry id change)
  sorted := List.pairwise_map.mpr (t.sorted.imp fun h => by simpa only [modifyEntry_fst] using h)

/-- The same ids, with something else under each. -/
def map (f : α → β) (t : Keyed α) : Keyed β where
  entries := t.entries.map fun e => (e.1, f e.2)
  sorted := List.pairwise_map.mpr t.sorted

def size (t : Keyed α) : Nat := t.entries.length

/-- A table with the entries given, in whatever order they come. -/
def ofEntries (entries : List (String × α)) : Keyed α :=
  entries.foldl (fun t (id, new) => t.insert id new) empty

end Keyed

end VoiceAdmin
