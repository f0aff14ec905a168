import Mathlib.Data.List.Nodup
import VoiceAdmin.Keyed

namespace VoiceAdmin.Keyed

variable {α β : Type} {t : Keyed α} {id : String}

/-- The ids. Each of them occurs once, since they ascend. -/
def ids (t : Keyed α) : List String := t.entries.map Prod.fst

theorem length_ids (t : Keyed α) : t.ids.length = t.size :=
  List.length_map _

theorem nodup_ids (t : Keyed α) : t.ids.Nodup := by
  have hsorted : t.ids.Pairwise (· < ·) := List.pairwise_map.mpr t.sorted
  refine hsorted.imp fun hlt heq => ?_
  rw [heq] at hlt
  exact String.lt_irrefl _ hlt

theorem find?_eq_none : t.find? id = none ↔ id ∉ t.ids := by
  rw [find?, List.lookup_eq_none_iff]
  simp only [ids, List.mem_map, bne_iff_ne, ne_eq, not_exists, not_and]
  exact ⟨fun h e he heq => h e he heq.symm, fun h e he heq => h e he heq.symm⟩

theorem find?_mem (h : id ∈ t.ids) : ∃ held, t.find? id = some held :=
  Option.ne_none_iff_exists'.mp fun hn => find?_eq_none.mp hn h

/-- One more entry, where there was none of its id. -/
theorem entries_insert (h : id ∉ t.ids) (new : α) :
    (t.insert id new).entries.Perm ((id, new) :: t.entries) := by
  obtain ⟨entries, sorted⟩ := t
  simp only [ids, insert] at h ⊢
  clear sorted
  induction entries with
  | nil => exact .refl _
  | cons head rest ih =>
    obtain ⟨k, c⟩ := head
    simp only [List.map_cons, List.mem_cons, not_or] at h
    rw [insertEntry]
    split
    · exact .refl _
    · rw [if_neg h.1]
      exact ((ih h.2).cons (k, c)).trans (.swap (id, new) (k, c) _)

theorem ids_insert (h : id ∉ t.ids) (new : α) :
    (t.insert id new).ids.Perm (id :: t.ids) :=
  (entries_insert h new).map Prod.fst

theorem size_insert (h : id ∉ t.ids) (new : α) : (t.insert id new).size = t.size + 1 := by
  rw [← length_ids, (ids_insert h new).length_eq, List.length_cons, length_ids]

theorem size_erase_le (t : Keyed α) (id : String) : (t.erase id).size ≤ t.size :=
  List.length_filter_le _ _

theorem size_modify (t : Keyed α) (id : String) (change : α → α) :
    (t.modify id change).size = t.size :=
  List.length_map _

theorem ids_erase (t : Keyed α) (id : String) : (t.erase id).ids = t.ids.filter (· != id) := by
  simp only [ids, erase, List.filter_map]
  rfl

theorem ids_erase_perm (h : id ∈ t.ids) : t.ids.Perm (id :: (t.erase id).ids) := by
  rw [ids_erase, ← t.nodup_ids.erase_eq_filter]
  exact List.perm_cons_erase h

theorem ids_modify (t : Keyed α) (id : String) (change : α → α) :
    (t.modify id change).ids = t.ids := by
  simp only [ids, modify, List.map_map]
  exact List.map_congr_left fun e _ => modifyEntry_fst id change e

theorem mem_ids_erase {other : String} : id ∈ (t.erase other).ids ↔ id ∈ t.ids ∧ id ≠ other := by
  rw [ids_erase, List.mem_filter, bne_iff_ne]

theorem size_map (f : α → β) (t : Keyed α) : (t.map f).size = t.size :=
  List.length_map _

variable {other : String} {change : α → α}

theorem ext_entries {t u : Keyed α} (h : t.entries = u.entries) : t = u := by
  obtain ⟨entries, sorted⟩ := t
  subst h
  rfl

theorem erase_absent (h : id ∉ t.ids) : t.erase id = t := by
  refine ext_entries (List.filter_eq_self.mpr fun e he => bne_iff_ne.mpr ?_)
  rintro rfl
  exact h (List.mem_map_of_mem he)

theorem modify_absent (h : id ∉ t.ids) (change : α → α) : t.modify id change = t := by
  have hkept : ∀ e ∈ t.entries, modifyEntry id change e = e := by
    intro e he
    refine if_neg ?_
    rintro rfl
    exact h (List.mem_map_of_mem he)
  exact ext_entries ((List.map_congr_left hkept).trans (List.map_id _))

theorem erase_comm (t : Keyed α) (id other : String) :
    (t.erase id).erase other = (t.erase other).erase id :=
  ext_entries (List.filter_comm _ _ _)

theorem erase_modify (t : Keyed α) (id other : String) (change : α → α) :
    (t.modify other change).erase id = (t.erase id).modify other change := by
  refine ext_entries ?_
  simp only [erase, modify, List.filter_map, Function.comp_def, modifyEntry_fst]

theorem modify_comm (h : id ≠ other) (change alter : α → α) :
    (t.modify id change).modify other alter = (t.modify other alter).modify id change := by
  refine ext_entries ?_
  simp only [modify, List.map_map]
  refine List.map_congr_left fun e _ => ?_
  by_cases he : e.1 = id
  · have hother : e.1 ≠ other := fun heq => h (he.symm.trans heq)
    simp only [Function.comp_apply, modifyEntry, if_pos he, if_neg hother]
  · by_cases heq : e.1 = other
    · simp only [Function.comp_apply, modifyEntry, if_neg he, if_pos heq]
    · simp only [Function.comp_apply, modifyEntry, if_neg he, if_neg heq]

theorem erase_erase (t : Keyed α) (id : String) : (t.erase id).erase id = t.erase id :=
  erase_absent fun h => (mem_ids_erase.mp h).2 rfl

theorem modify_modify (h : ∀ new, change (change new) = change new) (t : Keyed α)
    (id : String) : (t.modify id change).modify id change = t.modify id change := by
  refine ext_entries ?_
  simp only [modify, List.map_map]
  refine List.map_congr_left fun e _ => ?_
  by_cases he : e.1 = id
  · simp only [Function.comp_apply, modifyEntry, if_pos he, h]
  · simp only [Function.comp_apply, modifyEntry, if_neg he]

theorem lookup_cons_entry (id : String) (e : String × α) (rest : List (String × α)) :
    (e :: rest).lookup id = if id = e.1 then some e.2 else rest.lookup id := by
  rw [List.lookup_cons]
  by_cases h : id = e.1
  · rw [if_pos h, beq_iff_eq.mpr h]
  · rw [if_neg h, beq_eq_false_iff_ne.mpr h]

theorem find?_insert (t : Keyed α) (id : String) (new : α) (other : String) :
    (t.insert id new).find? other = if other = id then some new else t.find? other := by
  simp only [find?, insert]
  induction t.entries with
  | nil => exact lookup_cons_entry other (id, new) []
  | cons head rest ih =>
    obtain ⟨k, c⟩ := head
    rw [insertEntry]
    split
    · exact lookup_cons_entry other (id, new) _
    · split
      · rename_i hk
        simp only [lookup_cons_entry, hk]
        by_cases ho : other = k <;> simp only [ho, if_true, if_false]
      · rename_i hk
        simp only [lookup_cons_entry, ih]
        by_cases ho : other = k
        · simp only [ho, if_true, Ne.symm hk, if_false]
        · simp only [ho, if_false]

theorem find?_erase_self (t : Keyed α) (id : String) : (t.erase id).find? id = none :=
  find?_eq_none.mpr fun hm => (mem_ids_erase.mp hm).2 rfl

theorem find?_modify_self (t : Keyed α) (id : String) (change : α → α) :
    (t.modify id change).find? id = (t.find? id).map change := by
  simp only [find?, modify]
  induction t.entries with
  | nil => rfl
  | cons e rest ih =>
    rw [List.map_cons, lookup_cons_entry, lookup_cons_entry, ih, modifyEntry_fst]
    by_cases he : id = e.1
    · simp only [he, modifyEntry, if_true, Option.map_some]
    · simp only [he, if_false]

theorem find?_erase (h : id ≠ other) : (t.erase other).find? id = t.find? id := by
  simp only [find?, erase]
  induction t.entries with
  | nil => rfl
  | cons e rest ih =>
    by_cases he : e.1 = other
    · have hid : (id == e.1) = false := beq_eq_false_iff_ne.mpr (he ▸ h)
      rw [List.filter_cons_of_neg (by simpa using he), List.lookup_cons, hid]
      exact ih
    · rw [List.filter_cons_of_pos (by simpa using he), List.lookup_cons, List.lookup_cons, ih]

theorem find?_modify (h : id ≠ other) (change : α → α) :
    (t.modify other change).find? id = t.find? id := by
  simp only [find?, modify]
  induction t.entries with
  | nil => rfl
  | cons e rest ih =>
    rw [List.map_cons, List.lookup_cons, List.lookup_cons, ih, modifyEntry_fst]
    by_cases he : id = e.1
    · have hother : e.1 ≠ other := he ▸ h
      simp only [modifyEntry, if_neg hother]
    · simp only [beq_eq_false_iff_ne.mpr he]

theorem map_insert (f : α → β) (t : Keyed α) (id : String) (new : α) :
    (t.insert id new).map f = (t.map f).insert id (f new) := by
  refine ext_entries ?_
  simp only [map, insert]
  induction t.entries with
  | nil => rfl
  | cons head rest ih =>
    obtain ⟨k, old⟩ := head
    rw [List.map_cons, insertEntry, insertEntry]
    split
    · rfl
    · split
      · rfl
      · rw [List.map_cons, ih]

theorem map_erase (f : α → β) (t : Keyed α) (id : String) : (t.erase id).map f = (t.map f).erase id := by
  refine ext_entries ?_
  simp only [map, erase, List.filter_map]
  rfl

/-- What is changed below is changed above. -/
theorem map_modify {f : α → β} {alter : β → β} (h : ∀ x, f (change x) = alter (f x)) (t : Keyed α)
    (id : String) : (t.modify id change).map f = (t.map f).modify id alter := by
  refine ext_entries ?_
  simp only [map, modify, List.map_map]
  refine List.map_congr_left fun e _ => ?_
  by_cases he : e.1 = id
  · simp only [Function.comp_apply, modifyEntry, if_pos he, h]
  · simp only [Function.comp_apply, modifyEntry, if_neg he]

theorem entries_foldl_perm (entries : List (String × α)) (t : Keyed α)
    (h : (t.ids ++ entries.map Prod.fst).Nodup) :
    (entries.foldl (fun t (id, new) => t.insert id new) t).entries.Perm
      (t.entries ++ entries) := by
  induction entries generalizing t with
  | nil => simp
  | cons head rest ih =>
    obtain ⟨id, new⟩ := head
    have hmiddle : (id :: (t.ids ++ rest.map Prod.fst)).Nodup := List.nodup_middle.mp h
    have hfresh : id ∉ t.ids := fun hm =>
      (List.nodup_cons.mp hmiddle).1 (List.mem_append_left _ hm)
    have hnodup : ((t.insert id new).ids ++ rest.map Prod.fst).Nodup :=
      ((ids_insert hfresh new).append_right _).nodup_iff.mpr hmiddle
    exact (ih _ hnodup).trans (((entries_insert hfresh new).append_right rest).trans
      List.perm_middle.symm)

/-- A table does not depend on the order in which its entries come. -/
theorem ofEntries_perm {entries : List (String × α)} (h : entries.Perm t.entries) :
    ofEntries entries = t := by
  have hnodup : (entries.map Prod.fst).Nodup := (h.map Prod.fst).nodup_iff.mpr t.nodup_ids
  have hfilled : (ofEntries entries).entries.Perm t.entries :=
    (entries_foldl_perm entries empty hnodup).trans h
  refine ext_entries (hfilled.eq_of_pairwise (fun a b _ _ hab hba => ?_)
    (ofEntries entries).sorted t.sorted)
  exact absurd (String.lt_trans hab hba) (String.lt_irrefl _)

end VoiceAdmin.Keyed
