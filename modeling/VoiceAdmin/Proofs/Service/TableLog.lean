import Mathlib
import VoiceAdmin.Proofs.Recording
import VoiceAdmin.Proofs.Service.Presence

namespace VoiceAdmin.Service.ClientTable

/-- What is done with a table. -/
inductive Op where
  | add (client : Client)
  | remove (id : String)
  | setMuted (id : String) (muted : Bool)
  | get (id : String)

inductive Reply where
  | added (id : Option String)
  | removed (client : Option VoiceClient)
  | flagged (known : Bool)
  | got (client : Option VoiceClient)
deriving DecidableEq

def act (t : ClientTable) : Op → Reply × ClientTable
  | .add client =>
    let (id, t) := t.add client
    (.added id, t)
  | .remove id =>
    let (client, t) := t.remove id
    (.removed client, t)
  | .setMuted id muted =>
    let (known, t) := t.setMuted id muted
    (.flagged known, t)
  | .get id => (.got (t.find? id), t)

/-- What was done, with the replies. -/
abbrev Log := List (Op × Reply)

structure Recorded where
  table : ClientTable
  log : Log := []

namespace Recorded

def record (r : Recorded) (op : Op) : Recorded where
  table := (r.table.act op).2
  log := r.log ++ [(op, (r.table.act op).1)]

def run (capacity : Nat) (ops : List Op) : Recorded :=
  ops.foldl record { table := { capacity } }

theorem run_append (capacity : Nat) (ops : List Op) (op : Op) :
    run capacity (ops ++ [op]) = (run capacity ops).record op := by
  simp [run, List.foldl_append]

end Recorded

namespace Log

/-- The id that an entry gave out. -/
def idOf : Op × Reply → Option String
  | (.add _, .added id) => id
  | _ => none

/-- The ids given out, the first one first. -/
def issued (log : Log) : List String := log.filterMap idOf

/-- The flag that an operation sets for an id. -/
def flagOf (id : String) : Op → Option Bool
  | .setMuted other muted => if other = id then some muted else none
  | _ => none

/-- The flag that was set last for an id. -/
def lastFlag (id : String) (log : Log) : Option Bool :=
  (log.filterMap fun e => flagOf id e.1).getLast?

/-- A client was added under an id that was not removed since, and its flag is the one set last. -/
def Holds (log : Log) (id : String) (client : Client) : Prop :=
  ∃ before after given, log = before ++ (.add given, .added (some id)) :: after ∧
    (∀ reply, (.remove id, reply) ∉ after) ∧
    client = { given with muted := (lastFlag id after).getD given.muted }

variable {log : Log} {id : String} {client : Client}

theorem issued_append (log : Log) (e : Op × Reply) :
    issued (log ++ [e]) = issued log ++ (idOf e).toList :=
  filterMap_concat idOf log e

theorem lastFlag_append (id : String) (log : Log) (e : Op × Reply) :
    lastFlag id (log ++ [e]) = (flagOf id e.1).or (lastFlag id log) := by
  rw [lastFlag, filterMap_concat]
  cases flagOf id e.1 <;> simp [lastFlag]

theorem Holds.issued (h : Holds log id client) : id ∈ issued log := by
  obtain ⟨before, after, given, rfl, -, -⟩ := h
  exact List.mem_filterMap.mpr ⟨_, List.mem_append_right _ List.mem_cons_self, rfl⟩

/-- The state of a client that was added so, after what the log says of its flag. -/
def reflag (flag : Option Bool) (client : Client) : Client :=
  { client with muted := flag.getD client.muted }

theorem reflag_or (flag earlier : Option Bool) (client : Client) :
    reflag (flag.or earlier) client = reflag flag (reflag earlier client) := by
  cases flag <;> rfl

/-- One more entry adds the client, or it keeps one that was there but for its flag. -/
theorem holds_append (log : Log) (e : Op × Reply) (id : String) (client : Client) :
    Holds (log ++ [e]) id client ↔
      e = (.add client, .added (some id)) ∨
        ∃ earlier, Holds log id earlier ∧ (∀ reply, e ≠ (.remove id, reply)) ∧
          client = reflag (flagOf id e.1) earlier := by
  constructor
  · rintro ⟨before, after, given, hlog, hkept, rfl⟩
    rcases List.eq_nil_or_concat' after with rfl | ⟨after, last, rfl⟩
    · obtain ⟨-, hlast⟩ := List.append_inj' hlog rfl
      exact .inl (List.cons.inj hlast).1
    · have hlog : log ++ [e] = (before ++ (.add given, .added (some id)) :: after) ++ [last] := by
        simpa using hlog
      obtain ⟨rfl, hlast⟩ := List.append_inj' hlog rfl
      obtain rfl : e = last := (List.cons.inj hlast).1
      refine .inr ⟨_, ⟨before, after, given, rfl, fun reply hm => ?_, rfl⟩, fun reply he => ?_, ?_⟩
      · exact hkept reply (List.mem_append_left _ hm)
      · exact hkept reply (he ▸ List.mem_append_right _ (List.mem_singleton_self _))
      · rw [lastFlag_append]
        exact reflag_or _ _ given
  · rintro (rfl | ⟨earlier, ⟨before, after, given, rfl, hkept, rfl⟩, hstays, rfl⟩)
    · exact ⟨log, [], client, rfl, nofun, rfl⟩
    · refine ⟨before, after ++ [e], given, by simp, fun reply hm => ?_, ?_⟩
      · rcases List.mem_append.mp hm with hm | hm
        · exact hkept reply hm
        · exact hstays reply (List.mem_singleton.mp hm).symm
      · rw [lastFlag_append]
        exact (reflag_or _ _ given).symm

/-- An entry that neither adds nor removes. -/
theorem holds_append_kept {log : Log} {e : Op × Reply}
    (given : idOf e = none) (hremove : ∀ id reply, e ≠ (.remove id, reply)) {id : String} {client : Client} :
    Holds (log ++ [e]) id client ↔
      ∃ earlier, Holds log id earlier ∧ client = reflag (flagOf id e.1) earlier := by
  rw [holds_append]
  constructor
  · rintro (rfl | ⟨earlier, hearlier, -, rfl⟩)
    · exact absurd given nofun
    · exact ⟨earlier, hearlier, rfl⟩
  · rintro ⟨earlier, hearlier, rfl⟩
    exact .inr ⟨earlier, hearlier, hremove id, rfl⟩

theorem not_holds_nil (id : String) (client : Client) : ¬ Holds [] id client := by
  rintro ⟨before, after, given, hlog, -, -⟩
  exact absurd hlog.symm (by simp)

end Log

open Log

variable {t : ClientTable} {id : String}

theorem act_add_full (h : t.capacity ≤ t.size) (client : Client) :
    t.act (.add client) = (.added none, t) := by
  rw [act, add_full h]

theorem act_add_room (h : t.size < t.capacity) (client : Client) :
    t.act (.add client) = (.added (some (toString t.nextId.toNat)),
      { t with
        attached := t.attached.insert (toString t.nextId.toNat) client
        nextId := t.nextId + 1 }) := by
  rw [act, add_room h]

theorem act_remove (t : ClientTable) (id : String) :
    t.act (.remove id) = (.removed ((t.roster.find? id).map (VoiceClient.mk id)),
      { t with attached := t.attached.erase id }) := by
  rw [act, remove, find?_eq]

theorem act_setMuted (t : ClientTable) (id : String) (muted : Bool) :
    t.act (.setMuted id muted) = (.flagged (t.roster.find? id).isSome,
      { t with attached := t.attached.setMuted id muted }) := by
  rw [act, setMuted, find?_eq]
  cases h : t.roster.find? id with
  | some client => rfl
  | none =>
    have habsent : t.attached.setMuted id muted = t.attached :=
      Attached.setMuted_absent (Keyed.find?_eq_none.mp h) muted
    rw [habsent]
    rfl

/-- An operation on an id that is not there. -/
theorem act_unknown (h : t.roster.find? id = none) :
    t.act (.get id) = (.got none, t) ∧ t.act (.remove id) = (.removed none, t) ∧
      ∀ muted, t.act (.setMuted id muted) = (.flagged false, t) := by
  have habsent := Keyed.find?_eq_none.mp h
  refine ⟨?_, ?_, fun muted => ?_⟩
  · rw [act, find?_eq, h]
    rfl
  · rw [act, remove_absent habsent]
  · rw [act, setMuted_absent habsent]

/-- The number after the first ones was not given out with them. -/
theorem number_fresh (n : Nat) :
    toString (n + 1) ∉ (List.range n).map fun k => toString (k + 1) := by
  intro hm
  obtain ⟨k, hk, heq⟩ := List.mem_map.mp hm
  have := Nat.repr_inj.mp heq
  have := List.mem_range.mp hk
  omega

/-- The counter does not wrap around while so few ids are out. -/
theorem toNat_next {next : UInt32} {n : Nat} (h : next.toNat = n + 1)
    (few : n + 1 < UInt32.size - 1) : (next + 1).toNat = next.toNat + 1 := by
  have hsize : UInt32.size = 4294967296 := rfl
  rw [UInt32.toNat_add, UInt32.toNat_one, Nat.mod_eq_of_lt]
  omega

namespace Recorded

/-- The table holds what its log says, and the next id is the one after those given out. -/
structure Logged (r : Recorded) (most : Nat) : Prop where
  capacity : r.table.capacity = most
  size : r.table.size ≤ most
  issued : issued r.log = (List.range (issued r.log).length).map fun k => toString (k + 1)
  next : r.table.nextId.toNat = (Log.issued r.log).length + 1
  holds : ∀ id client, r.table.roster.find? id = some client ↔ Holds r.log id client

namespace Logged

variable {r : Recorded} {most : Nat}

theorem start (most : Nat) : Logged { table := { capacity := most } } most where
  capacity := rfl
  size := Nat.zero_le _
  issued := rfl
  next := rfl
  holds id client := ⟨nofun, fun h => absurd h (not_holds_nil id client)⟩

theorem fresh (h : r.Logged most) : toString r.table.nextId.toNat ∉ Log.issued r.log := by
  rw [h.issued, h.next]
  exact number_fresh _

theorem mem_ids (h : r.Logged most) (id : String) :
    id ∈ r.table.roster.ids ↔ ∃ client, Holds r.log id client := by
  constructor
  · intro hid
    obtain ⟨client, hf⟩ := Keyed.find?_mem hid
    exact ⟨client, (h.holds id client).mp hf⟩
  · rintro ⟨client, hh⟩
    have hf := (h.holds id client).mpr hh
    refine Classical.not_not.mp fun hid => ?_
    rw [Keyed.find?_eq_none.mpr hid] at hf
    exact nomatch hf

theorem number (h : r.Logged most) {id : String} {client : Client} (hh : Holds r.log id client) :
    ∃ k < (Log.issued r.log).length, id = toString (k + 1) := by
  have hid := hh.issued
  rw [h.issued] at hid
  obtain ⟨k, hk, rfl⟩ := List.mem_map.mp hid
  exact ⟨k, List.mem_range.mp hk, rfl⟩

/-- An operation that gives out no id. -/
theorem record_kept (h : r.Logged most) {op : Op} (given : idOf (op, (r.table.act op).1) = none)
    (capacity : (r.table.act op).2.capacity = r.table.capacity)
    (size : (r.table.act op).2.size ≤ r.table.size)
    (next : (r.table.act op).2.nextId = r.table.nextId)
    (holds : ∀ id client, (r.table.act op).2.roster.find? id = some client ↔
      Holds (r.log ++ [(op, (r.table.act op).1)]) id client) : (r.record op).Logged most := by
  have hissued : Log.issued (r.record op).log = Log.issued r.log := by
    simp only [record, issued_append, given, Option.toList_none, List.append_nil]
  refine ⟨?_, size.trans h.size, ?_, ?_, holds⟩
  · simp only [record, capacity, h.capacity]
  · rw [hissued]
    exact h.issued
  · rw [hissued]
    simp only [record, next, h.next]

theorem get (h : r.Logged most) (id : String) : (r.record (.get id)).Logged most := by
  refine h.record_kept rfl rfl (Nat.le_refl _) rfl fun other client => ?_
  rw [holds_append_kept rfl (by simp)]
  simpa [act, flagOf, reflag] using h.holds other client

theorem remove (h : r.Logged most) (id : String) : (r.record (.remove id)).Logged most := by
  have hact := act_remove r.table id
  refine h.record_kept (by rw [hact]; rfl) (by rw [hact]) ?_ (by rw [hact]) fun other client => ?_
  · rw [hact]
    exact r.table.size_erase_le id
  · simp only [hact, roster_erase, holds_append, flagOf]
    by_cases hid : other = id
    · subst hid
      simp [Keyed.find?_erase_self]
    · rw [Keyed.find?_erase hid, h.holds]
      simp [reflag, Ne.symm hid]

theorem setMuted (h : r.Logged most) (id : String) (muted : Bool) :
    (r.record (.setMuted id muted)).Logged most := by
  have hact := act_setMuted r.table id muted
  refine h.record_kept (by rw [hact]; rfl) (by rw [hact]) ?_ (by rw [hact]) fun other client => ?_
  · rw [hact]
    exact (r.table.size_setMuted id muted).le
  · rw [hact, roster_setMuted, holds_append_kept rfl (by simp)]
    by_cases hid : other = id
    · subst hid
      rw [Keyed.find?_modify_self]
      simp [flagOf, reflag, ← h.holds, eq_comm]
    · rw [Keyed.find?_modify hid, h.holds]
      simp [flagOf, reflag, Ne.symm hid]

theorem add_full (h : r.Logged most) (full : r.table.capacity ≤ r.table.size) (client : Client) :
    (r.record (.add client)).Logged most := by
  have hact := act_add_full full client
  refine h.record_kept (by rw [hact]; rfl) (by rw [hact]) (by rw [hact]) (by rw [hact])
    fun id other => ?_
  rw [hact, holds_append_kept rfl (by simp)]
  simpa [flagOf, reflag] using h.holds id other

theorem add_room (h : r.Logged most) (room : r.table.size < r.table.capacity) (client : Client)
    (few : (Log.issued (r.record (.add client)).log).length < UInt32.size - 1) :
    (r.record (.add client)).Logged most := by
  have hact := act_add_room room client
  have hfresh : toString r.table.nextId.toNat ∉ r.table.roster.ids :=
    fun hm => h.fresh (((h.mem_ids _).mp hm).choose_spec.issued)
  have hissued : Log.issued (r.record (.add client)).log =
      Log.issued r.log ++ [toString r.table.nextId.toNat] := by
    simp only [record, hact, issued_append, idOf, Option.toList_some]
  have hlength : (Log.issued (r.record (.add client)).log).length =
      (Log.issued r.log).length + 1 := by
    rw [hissued, List.length_append, List.length_singleton]
  refine ⟨?_, ?_, ?_, ?_, fun id other => ?_⟩
  · simp only [record, hact, h.capacity]
  · have := h.capacity
    simp only [record, hact, size_insert hfresh]
    omega
  · rw [hlength, List.range_succ, List.map_append, ← h.issued, hissued, h.next]
    rfl
  · rw [hlength, ← h.next]
    simp only [record, hact]
    exact toNat_next h.next (hlength ▸ few)
  · have hout := h.fresh
    simp only [record, hact, roster_insert, Keyed.find?_insert, holds_append, flagOf]
    generalize toString r.table.nextId.toNat = new at hout
    by_cases hid : id = new
    · subst hid
      have hnone : ∀ earlier, ¬ Holds r.log id earlier := fun earlier hh => hout hh.issued
      simp [hnone]
    · simp [hid, Ne.symm hid, h.holds, reflag]

end Logged

theorem record_issued_le (r : Recorded) (op : Op) :
    (issued r.log).length ≤ (issued (r.record op).log).length := by
  simp only [record, issued_append, List.length_append]
  omega

theorem record_logged {r : Recorded} {most : Nat} (h : r.Logged most) (op : Op)
    (few : (issued (r.record op).log).length < UInt32.size - 1) : (r.record op).Logged most := by
  cases op with
  | add client =>
    by_cases hroom : r.table.size < r.table.capacity
    · exact h.add_room hroom client few
    · exact h.add_full (Nat.not_lt.mp hroom) client
  | remove id => exact h.remove id
  | setMuted id muted => exact h.setMuted id muted
  | get id => exact h.get id

theorem run_logged (most : Nat) (ops : List Op)
    (few : (issued (run most ops).log).length < UInt32.size - 1) : (run most ops).Logged most := by
  induction ops using List.reverseRecOn with
  | nil => exact .start most
  | append_singleton ops op ih =>
    rw [run_append] at few ⊢
    exact record_logged (ih ((record_issued_le _ op).trans_lt few)) op few

/-- No id is spelled with a leading zero or a leading blank. -/
theorem number_plain (k : Nat) : toString k ≠ "01" ∧ toString k ≠ " 1" := by
  have hdigits : (toString k).toList = Nat.toDigits 10 k := String.toList_ofList
  constructor
  · intro heq
    rw [heq] at hdigits
    have hread : Nat.ofDigitChars 10 (Nat.toDigits 10 k) 0 = k :=
      Nat.ofDigitChars_toDigits (by decide) (by decide)
    rw [← hdigits] at hread
    obtain rfl : 1 = k := hread
    rw [Nat.toDigits_of_lt_base (by decide)] at hdigits
    exact absurd hdigits (by decide)
  · intro heq
    rw [heq] at hdigits
    have hblank : ' ' ∈ Nat.toDigits 10 k := by
      rw [← hdigits]
      exact List.mem_cons_self
    have hdigit : ' '.isDigit := Nat.isDigit_of_mem_toDigits (by decide) (by decide) hblank
    exact absurd hdigit (by decide)

/-- What there is to say of a table after any run comes from the log of the run. Its ids are the texts
of the numbers from one on, without gaps; a client is refused when the table is full, which changes
nothing; the snapshot is what the log holds, however its entries were ordered when it was taken; and
every reply is read off the snapshot, so that whoever is found or leaves has the id that was asked for. -/
theorem run_refines_log {capacity : Nat} {ops : List Op} {r : Recorded}
    (hrun : run capacity ops = r) (few : (issued r.log).length < UInt32.size - 1) :
    issued r.log = ((List.range (issued r.log).length).map fun k => toString (k + 1)) ∧
    (∀ client, capacity ≤ r.table.size → r.table.act (.add client) = (.added none, r.table)) ∧
    (∀ client, r.table.size < capacity →
      (r.table.act (.add client)).1 = .added (some (toString ((issued r.log).length + 1)))) ∧
    (∀ id client, r.table.roster.find? id = some client ↔ Holds r.log id client) ∧
    (∀ entries, entries.Perm r.table.roster.entries →
      Keyed.ofEntries entries = r.table.roster) ∧
    (∀ id, r.table.act (.get id) = (.got ((r.table.roster.find? id).map (VoiceClient.mk id)), r.table) ∧
      (r.table.act (.remove id)).1 = .removed ((r.table.roster.find? id).map (VoiceClient.mk id)) ∧
      ∀ muted, (r.table.act (.setMuted id muted)).1 =
        .flagged (r.table.roster.find? id).isSome) ∧
    (r.table.size = r.table.roster.ids.length ∧ r.table.size ≤ capacity ∧
      r.table.roster.ids.Nodup ∧ ∀ id, id ∈ r.table.roster.ids ↔ ∃ client, Holds r.log id client) ∧
    (∀ id, (∀ client, ¬ Holds r.log id client) →
      r.table.act (.get id) = (.got none, r.table) ∧
        r.table.act (.remove id) = (.removed none, r.table) ∧
        ∀ muted, r.table.act (.setMuted id muted) = (.flagged false, r.table)) ∧
    (∀ id client, Holds r.log id client → ∃ k < (issued r.log).length, id = toString (k + 1)) ∧
    ∀ client, ¬ Holds r.log "01" client ∧ ¬ Holds r.log " 1" client := by
  have h := run_logged capacity ops (by rw [hrun]; exact few)
  rw [hrun] at h
  refine ⟨h.issued, fun client hfull => ?_, fun client hroom => ?_, h.holds,
    fun entries hperm => Keyed.ofEntries_perm hperm, fun id => ⟨?_, ?_, fun muted => ?_⟩,
    ⟨r.table.size_eq.trans (Keyed.length_ids _).symm, h.size, r.table.roster.nodup_ids, h.mem_ids⟩, fun id hid => ?_,
    fun id client => h.number, fun client => ⟨fun hh => ?_, fun hh => ?_⟩⟩
  · exact act_add_full (h.capacity ▸ hfull) client
  · rw [act_add_room (h.capacity ▸ hroom), h.next]
  · rw [act, find?_eq]
  · rw [act_remove]
  · rw [act_setMuted]
  · refine act_unknown (Option.eq_none_iff_forall_ne_some.mpr fun client hf => ?_)
    exact hid client ((h.holds id client).mp hf)
  · obtain ⟨k, -, heq⟩ := h.number hh
    exact (number_plain (k + 1)).1 heq.symm
  · obtain ⟨k, -, heq⟩ := h.number hh
    exact (number_plain (k + 1)).2 heq.symm

/-- A table of two: one client is refused, one leaves and makes room for the third id, one is muted. -/
theorem run_refines_log_three :
    let viper : Client := ⟨"Viper", "F-16C", "Blue", false⟩
    let hornet : Client := ⟨"Hornet", "F-18C", "Red", true⟩
    let ops : List Op :=
      [.add viper, .add hornet, .add viper, .remove "01", .remove "2", .setMuted "1" true, .add hornet]
    let r := run 2 ops
    issued r.log = ["1", "2", "3"] ∧ r.table.roster.find? "1" = some { viper with muted := true } ∧
      Holds r.log "1" { viper with muted := true } ∧ Holds r.log "3" hornet ∧
      r.table.act (.add viper) = (.added none, r.table) := by
  intro viper hornet ops r
  have hissued : issued r.log = ["1", "2", "3"] := by decide +kernel
  have hfew : (issued r.log).length < UInt32.size - 1 := by
    rw [hissued]
    decide
  have hrun : run 2 ops = r := rfl
  obtain ⟨-, hfull, -, hholds, -⟩ := run_refines_log hrun hfew
  have hone : r.table.roster.find? "1" = some { viper with muted := true } := by decide +kernel
  have hthree : r.table.roster.find? "3" = some hornet := by decide +kernel
  exact ⟨hissued, hone, (hholds _ _).mp hone, (hholds _ _).mp hthree, hfull viper (by decide +kernel)⟩

end Recorded

end VoiceAdmin.Service.ClientTable
