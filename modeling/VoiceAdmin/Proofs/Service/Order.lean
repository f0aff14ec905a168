import Mathlib.Data.List.Basic
import VoiceAdmin.Proofs.Service.Effects
import VoiceAdmin.Proofs.Service.Parts

namespace VoiceAdmin

namespace Command

inductive Group where
  | power
  | servers
  | frequencies
  | coalitions
  | clients
  | notices
deriving DecidableEq

def group : Command → Group
  | .startServer | .stopServer => .power
  | .saveSettings _ => .servers
  | .saveFrequencies _ => .frequencies
  | .addCoalition _ | .updateCoalition _ | .removeCoalition _ => .coalitions
  | .kick _ _ | .ban _ _ | .unban _ | .mute _ | .unmute _ => .clients
  | .notify _ => .notices

/-- The one client or coalition that a command is about. -/
inductive Subject where
  | client (id : String)
  | coalition (name : String)
deriving DecidableEq

def subject? : Command → Option Subject
  | .kick client _ | .ban client _ | .unban client | .mute client | .unmute client =>
    some (.client client)
  | .addCoalition c | .updateCoalition c | .removeCoalition c => some (.coalition c.name)
  | _ => none

/-- Whether a command adds to the end of a list. -/
def appends : Command → Bool
  | .ban _ _ | .addCoalition _ => true
  | _ => false

/-- Commands of different groups, or about different clients or different coalitions, but neither two bans
nor two new coalitions. Commands of different groups act on different parts of the state; within a group
it is the client or the coalition that keeps them apart, unless both add to the end of one list. -/
inductive Independent (a b : Command) : Prop
  | groups (h : a.group ≠ b.group)
  | subjects {x y : Subject} (ha : a.subject? = some x) (hb : b.subject? = some y) (hne : x ≠ y)
      (hadd : ¬ (a.appends = true ∧ b.appends = true))

variable {a b c : Command}

theorem group_of_subject {x : Subject} (ha : a.subject? = some x) (hb : b.subject? = some x) :
    a.group = b.group := by
  cases a <;> cases ha <;> cases b <;> first | rfl | cases hb

namespace Independent

theorem symm (h : Independent a b) : Independent b a := by
  cases h with
  | groups h => exact .groups (Ne.symm h)
  | subjects ha hb hne hadd => exact .subjects hb ha (Ne.symm hne) fun hboth => hadd hboth.symm

theorem subject_ne (h : Independent a b) {x : Subject} (ha : a.subject? = some x) :
    b.subject? ≠ some x := by
  intro hb
  cases h with
  | groups h => exact h (group_of_subject ha hb)
  | subjects ha' hb' hne hadd => exact hne (Option.some.inj ((ha'.symm.trans ha).trans (hb.symm.trans hb')))

theorem not_both_append (h : Independent a b) (hg : a.group = b.group) :
    ¬ (a.appends = true ∧ b.appends = true) := by
  cases h with
  | groups h => exact absurd hg h
  | subjects ha hb hne hadd => exact hadd

/-- No two independent commands belong to a group in which nothing keeps them apart. -/
theorem apart (h : Independent a b) {g : Group} (hg : ∀ c : Command, c.group = g → c.subject? = none) :
    a.group ≠ g ∨ b.group ≠ g := by
  cases h with
  | groups h =>
    by_cases ha : a.group = g
    · exact .inr fun hb => h (ha.trans hb.symm)
    · exact .inl ha
  | subjects ha hb hne hadd =>
    refine .inl fun hag => ?_
    rw [hg a hag] at ha
    cases ha

/-- On a part of the state that one group owns, its commands meet only those that leave it alone. -/
theorem comm_of_alone {on : Command → α → α} {g : Group} (h : Independent a b)
    (hg : ∀ c : Command, c.group = g → c.subject? = none)
    (hother : ∀ c : Command, c.group ≠ g → ∀ x, on c x = x) (x : α) :
    on a (on b x) = on b (on a x) := by
  rcases h.apart hg with ha | hb
  · rw [hother a ha, hother a ha]
  · rw [hother b hb, hother b hb]

theorem onStatus_comm (h : Independent a b) (status : Status) :
    a.onStatus (b.onStatus status) = b.onStatus (a.onStatus status) := by
  refine h.comm_of_alone (g := .power) (fun c hc => ?_) (fun c hc status => ?_) status
  · cases c <;> first | rfl | cases hc
  · cases c <;> first | rfl | exact absurd rfl hc

theorem onServers_comm (h : Independent a b) (servers : Endpoints) :
    a.onServers (b.onServers servers) = b.onServers (a.onServers servers) := by
  refine h.comm_of_alone (g := .servers) (fun c hc => ?_) (fun c hc servers => ?_) servers
  · cases c <;> first | rfl | cases hc
  · cases c <;> first | rfl | exact absurd rfl hc

theorem onFrequencies_comm (h : Independent a b) (frequencies : Frequencies) :
    a.onFrequencies (b.onFrequencies frequencies) = b.onFrequencies (a.onFrequencies frequencies) := by
  refine h.comm_of_alone (g := .frequencies) (fun c hc => ?_) (fun c hc frequencies => ?_) frequencies
  · cases c <;> first | rfl | cases hc
  · cases c <;> first | rfl | exact absurd rfl hc

end Independent

section Coalitions

open Service.AdminState (replaceFirst)

variable {new old : Coalition} {l : List Coalition}

theorem replaceFirst_append (h : old.name ≠ new.name) :
    replaceFirst new (l ++ [old]) = replaceFirst new l ++ [old] := by
  induction l with
  | nil => simp [replaceFirst, h]
  | cons first rest ih =>
    rw [List.cons_append, replaceFirst, replaceFirst, ih]
    split <;> rfl

theorem replaceFirst_comm (h : old.name ≠ new.name) :
    replaceFirst new (replaceFirst old l) = replaceFirst old (replaceFirst new l) := by
  induction l with
  | nil => rfl
  | cons first rest ih =>
    by_cases hold : first.name = old.name
    · have hnew : first.name ≠ new.name := fun heq => h (hold.symm.trans heq)
      simp only [replaceFirst, if_pos hold, if_neg hnew, if_neg h]
    · by_cases hnew : first.name = new.name
      · simp only [replaceFirst, if_pos hnew, if_neg hold, if_neg (Ne.symm h)]
      · simp only [replaceFirst, if_neg hnew, if_neg hold, ih]

theorem replaceFirst_filter (h : old.name ≠ new.name) :
    replaceFirst new (l.filter (· != old)) = (replaceFirst new l).filter (· != old) := by
  have hkept : (new != old) = true := bne_iff_ne.mpr fun heq => h (by rw [heq])
  induction l with
  | nil => rfl
  | cons first rest ih =>
    by_cases hnew : first.name = new.name
    · have hfirst : (first != old) = true := bne_iff_ne.mpr fun heq => h (by rw [← heq, hnew])
      simp only [replaceFirst, List.filter_cons, hfirst, hkept, if_true, if_pos hnew]
    · simp only [replaceFirst, List.filter_cons, if_neg hnew]
      split
      · rw [replaceFirst, if_neg hnew, ih]
      · exact ih

theorem mem_replaceFirst {other : Coalition} (h : other.name ≠ new.name) :
    other ∈ replaceFirst new l ↔ other ∈ l := by
  have hne : other ≠ new := fun heq => h (by rw [heq])
  induction l with
  | nil => rfl
  | cons first rest ih =>
    rw [replaceFirst]
    split
    · rename_i hnew
      have hfirst : other ≠ first := fun heq => h (by rw [heq, hnew])
      simp only [List.mem_cons, hne, hfirst, false_or]
    · simp only [List.mem_cons, ih]

theorem filter_append_other {x y : Coalition} (h : x ≠ y) :
    (l ++ [x]).filter (· != y) = l.filter (· != y) ++ [x] := by
  rw [List.filter_append, List.filter_singleton, bne_iff_ne.mpr h, cond_true]

theorem onCoalitions_cases (c : Command) : (∀ l, c.onCoalitions l = l) ∨
    ∃ x : Coalition, c.subject? = some (.coalition x.name) ∧
      (c = .addCoalition x ∨ c = .updateCoalition x ∨ c = .removeCoalition x) := by
  cases c with
  | addCoalition x => exact .inr ⟨x, rfl, .inl rfl⟩
  | updateCoalition x => exact .inr ⟨x, rfl, .inr (.inl rfl)⟩
  | removeCoalition x => exact .inr ⟨x, rfl, .inr (.inr rfl)⟩
  | _ => exact .inl fun _ => rfl

theorem Independent.onCoalitions_comm (h : Independent a b) (l : List Coalition) :
    a.onCoalitions (b.onCoalitions l) = b.onCoalitions (a.onCoalitions l) := by
  rcases a.onCoalitions_cases with ha | ⟨x, hx, ha⟩
  · rw [ha, ha]
  rcases b.onCoalitions_cases with hb | ⟨y, hy, hb⟩
  · rw [hb, hb]
  have hname : x.name ≠ y.name := fun heq => h.subject_ne hx (heq ▸ hy)
  have hne : x ≠ y := fun heq => hname (heq ▸ rfl)
  -- to add, to replace and to remove, each against each
  rcases ha with rfl | rfl | rfl <;> rcases hb with rfl | rfl | rfl
  · exact absurd ⟨rfl, rfl⟩ (h.not_both_append rfl)
  · exact (replaceFirst_append hname).symm
  · exact (filter_append_other hne).symm
  · exact replaceFirst_append (Ne.symm hname)
  · exact replaceFirst_comm (Ne.symm hname)
  · exact replaceFirst_filter (Ne.symm hname)
  · exact filter_append_other (Ne.symm hne)
  · exact (replaceFirst_filter hname).symm
  · exact List.filter_comm _ _ _

theorem mem_onCoalitions {other : Coalition} (h : c.subject? ≠ some (.coalition other.name)) :
    other ∈ c.onCoalitions l ↔ other ∈ l := by
  rcases c.onCoalitions_cases with hc | ⟨x, hx, hc⟩
  · rw [hc]
  have hname : other.name ≠ x.name := fun heq => h (heq ▸ hx)
  have hne : other ≠ x := fun heq => hname (heq ▸ rfl)
  rcases hc with rfl | rfl | rfl
  · simp only [onCoalitions, List.mem_append, List.mem_singleton, hne, or_false]
  · exact mem_replaceFirst hname
  · simp only [onCoalitions, List.mem_filter, bne_iff_ne, hne, ne_eq, not_false_eq_true, and_true]

end Coalitions

section Clients

variable {i : String} {r : Roster} {l : List Ban}

/-- A command for a client takes it out of the roster or changes it there, or leaves the roster alone. -/
theorem onRoster_cases (c : Command) : (∀ r, c.onRoster r = r) ∨
    ∃ i, c.subject? = some (.client i) ∧
      ((∀ r, c.onRoster r = r.erase i) ∨ ∃ change, ∀ r, c.onRoster r = r.modify i change) := by
  cases c with
  | kick client reason | ban client reason => exact .inr ⟨client, rfl, .inl fun _ => rfl⟩
  | mute client | unmute client => exact .inr ⟨client, rfl, .inr ⟨_, fun _ => rfl⟩⟩
  | _ => exact .inl fun _ => rfl

theorem Independent.onRoster_comm (h : Independent a b) (r : Roster) :
    a.onRoster (b.onRoster r) = b.onRoster (a.onRoster r) := by
  rcases a.onRoster_cases with ha | ⟨i, hi, ha⟩
  · rw [ha, ha]
  rcases b.onRoster_cases with hb | ⟨j, hj, hb⟩
  · rw [hb, hb]
  have hne : i ≠ j := fun heq => h.subject_ne hi (heq ▸ hj)
  rcases ha with ha | ⟨change, ha⟩ <;> rcases hb with hb | ⟨alter, hb⟩
  · rw [ha, ha, hb, hb, Keyed.erase_comm]
  · rw [ha, ha, hb, hb, Keyed.erase_modify]
  · rw [ha, ha, hb, hb, Keyed.erase_modify]
  · rw [ha, ha, hb, hb, Keyed.modify_comm hne.symm]

theorem Independent.onAttached_comm (h : Independent a b) (x : Service.Attached) :
    a.onAttached (b.onAttached x) = b.onAttached (a.onAttached x) := by
  refine Service.Attached.ext_roster ?_
  simp only [roster_onAttached, h.onRoster_comm]

theorem find?_onRoster (h : c.subject? ≠ some (.client i)) : (c.onRoster r).find? i = r.find? i := by
  rcases c.onRoster_cases with hc | ⟨j, hj, hc⟩
  · rw [hc]
  have hne : i ≠ j := fun heq => h (heq ▸ hj)
  rcases hc with hc | ⟨change, hc⟩
  · rw [hc, Keyed.find?_erase hne]
  · rw [hc, Keyed.find?_modify hne]

theorem not_mem_ids_onRoster (h : c.subject? ≠ some (.client i)) :
    i ∉ (c.onRoster r).ids ↔ i ∉ r.ids := by
  rw [← Keyed.find?_eq_none, ← Keyed.find?_eq_none, find?_onRoster h]

theorem banEntry_onRoster (h : c.subject? ≠ some (.client i)) (reason : String) :
    banEntry (c.onRoster r) i reason = banEntry r i reason := by
  rw [banEntry, banEntry, find?_onRoster h]

theorem id_of_banEntry {reason : String} {ban : Ban} (h : ban ∈ banEntry r i reason) : ban.id = i := by
  obtain ⟨client, -, rfl⟩ := List.mem_map.mp h
  rfl

theorem onBans_cases (c : Command) : (∀ r l, c.onBans r l = l) ∨
    ∃ i, c.subject? = some (.client i) ∧ (c = .unban i ∨ ∃ reason, c = .ban i reason) := by
  cases c with
  | unban id => exact .inr ⟨id, rfl, .inl rfl⟩
  | ban client reason => exact .inr ⟨client, rfl, .inr ⟨reason, rfl⟩⟩
  | _ => exact .inl fun _ _ => rfl

/-- Lifting a ban does not see the bans of another client that follow. -/
theorem eraseP_append_other {new : List Ban} (h : ∀ ban ∈ new, ban.id ≠ i) :
    ((l ++ new).eraseP fun ban => ban.id = i) = (l.eraseP fun ban => ban.id = i) ++ new := by
  have hnew : (new.eraseP fun ban => ban.id = i) = new :=
    List.eraseP_of_forall_not fun ban hb he => h ban hb (of_decide_eq_true he)
  rw [List.eraseP_append, hnew]
  split
  · rfl
  · rename_i hnone
    rw [List.eraseP_of_forall_not fun ban hb he => hnone (List.any_eq_true.mpr ⟨ban, hb, he⟩)]

theorem Independent.onBans_onRoster (h : Independent a b) (r : Roster) (l : List Ban) :
    a.onBans (b.onRoster r) l = a.onBans r l := by
  rcases a.onBans_cases with ha | ⟨i, hi, rfl | ⟨reason, rfl⟩⟩
  · rw [ha, ha]
  · rfl
  · rw [onBans, onBans, banEntry_onRoster (h.subject_ne hi)]

theorem Independent.onBans_comm (h : Independent a b) (r : Roster) (l : List Ban) :
    a.onBans (b.onRoster r) (b.onBans r l) = b.onBans (a.onRoster r) (a.onBans r l) := by
  rw [h.onBans_onRoster, h.symm.onBans_onRoster]
  rcases a.onBans_cases with ha | ⟨i, hi, ha⟩
  · rw [ha, ha]
  rcases b.onBans_cases with hb | ⟨j, hj, hb⟩
  · rw [hb, hb]
  have hne : i ≠ j := fun heq => h.subject_ne hi (heq ▸ hj)
  rcases ha with rfl | ⟨reason, rfl⟩ <;> rcases hb with rfl | ⟨other, rfl⟩
  · refine List.eraseP_comm fun ban _ => ?_
    by_cases hban : ban.id = j
    · exact .inr fun hi => hne ((of_decide_eq_true hi).symm.trans hban)
    · exact .inl fun hj => hban (of_decide_eq_true hj)
  · exact eraseP_append_other fun ban hm => id_of_banEntry hm ▸ hne.symm
  · exact (eraseP_append_other fun ban hm => id_of_banEntry hm ▸ hne).symm
  · exact absurd ⟨rfl, rfl⟩ (h.not_both_append rfl)

theorem not_mem_ids_onBans (h : c.subject? ≠ some (.client i)) :
    i ∉ (c.onBans r l).map Ban.id ↔ i ∉ l.map Ban.id := by
  rcases c.onBans_cases with hc | ⟨j, hj, hc⟩
  · rw [hc]
  have hne : i ≠ j := fun heq => h (heq ▸ hj)
  refine not_congr ?_
  simp only [List.mem_map]
  rcases hc with rfl | ⟨reason, rfl⟩
  · refine exists_congr fun ban => and_congr_left fun hid => List.mem_eraseP_of_neg ?_
    simpa [hid] using hne
  · refine exists_congr fun ban => and_congr_left fun hid => ?_
    rw [onBans, List.mem_append]
    exact or_iff_left fun hm => hne (hid.symm.trans (id_of_banEntry hm))

end Clients

end Command

namespace Service

open Command (Independent)

variable {a b : Command}

namespace AdminState

theorem after_comm (h : Independent a b) (s : AdminState) : (s.after a).after b = (s.after b).after a := by
  simp only [after, ClientTable.roster, Command.roster_onAttached, h.onStatus_comm, h.onServers_comm,
    h.onFrequencies_comm, h.onCoalitions_comm, h.onAttached_comm, h.onBans_comm]

/-- Whether a command finds what it is for does not depend on a command that is independent of it. -/
theorem lacks_after (h : Independent a b) (s : AdminState) : (s.after b).Lacks a ↔ s.Lacks a := by
  cases a with
  | startServer | stopServer | addCoalition | saveSettings | saveFrequencies | notify => rfl
  | kick client | ban client | mute client | unmute client =>
    rw [Lacks, after_roster]
    exact Command.not_mem_ids_onRoster (h.subject_ne rfl)
  | unban id => exact Command.not_mem_ids_onBans (h.subject_ne rfl)
  | updateCoalition coalition =>
    refine not_congr ?_
    simp only [List.mem_map]
    refine exists_congr fun c => and_congr_left fun hname => Command.mem_onCoalitions ?_
    rw [hname]
    exact h.subject_ne rfl
  | removeCoalition coalition => exact not_congr (Command.mem_onCoalitions (h.subject_ne rfl))

theorem mute_on_notification {s t : AdminState} {client : String} (id : String) (muted : Bool)
    (h : client ∉ s.clients.roster.ids ↔ client ∉ t.clients.roster.ids) :
    (s.mute id client muted).on .notification = (t.mute id client muted).on .notification := by
  by_cases hs : client ∈ s.clients.roster.ids
  · have ht := (not_iff_not.mp h).mp hs
    simp only [mute, ClientTable.setMuted_present hs, ClientTable.setMuted_present ht]
    rfl
  · simp only [mute, ClientTable.setMuted_absent hs, ClientTable.setMuted_absent (h.mp hs)]
    rfl

/-- What a command announces depends on the state only in whether it finds what it is for. -/
theorem execute_on_notification {s t : AdminState} (id : String) {c : Command}
    (h : s.Lacks c ↔ t.Lacks c) :
    (s.execute id c).on .notification = (t.execute id c).on .notification := by
  cases c with
  | startServer | stopServer | addCoalition | saveSettings | saveFrequencies | notify => rfl
  | mute client => exact mute_on_notification id true h
  | unmute client => exact mute_on_notification id false h
  | kick client reason | ban client reason =>
    by_cases hs : client ∈ s.clients.roster.ids
    · obtain ⟨_, hrs⟩ := ClientTable.remove_present hs
      obtain ⟨_, hrt⟩ := ClientTable.remove_present ((not_iff_not.mp h).mp hs)
      simp only [execute, hrs, hrt]
      rfl
    · simp only [execute, ClientTable.remove_absent hs, ClientTable.remove_absent (h.mp hs)]
      rfl
  | unban banned =>
    by_cases hs : banned ∈ s.bans.map Ban.id
    · obtain ⟨_, _, _, -, -, hrs⟩ := removeBan_present hs
      obtain ⟨_, _, _, -, -, hrt⟩ := removeBan_present ((not_iff_not.mp h).mp hs)
      simp only [execute, hrs, hrt]
      rfl
    · simp only [execute, removeBan_absent hs, removeBan_absent (h.mp hs)]
      rfl
  | updateCoalition coalition =>
    by_cases hs : coalition.name ∈ s.coalitions.map Coalition.name
    · have ht := (not_iff_not.mp h).mp hs
      simp only [execute, updateCoalition_present hs, updateCoalition_present ht]
      rfl
    · simp only [execute, updateCoalition_absent hs, updateCoalition_absent (h.mp hs)]
      rfl
  | removeCoalition coalition =>
    by_cases hs : coalition ∈ s.coalitions
    · have ht := (not_iff_not.mp h).mp hs
      simp only [execute, removeCoalition_present hs, removeCoalition_present ht]
      rfl
    · simp only [execute, removeCoalition_absent hs, removeCoalition_absent (h.mp hs)]
      rfl

/-- The command finds what it is for and touches the domain. -/
def Reaches (s : AdminState) (c : Command) (d : Domain) : Prop := ¬ s.Lacks c ∧ d ∈ commandTargets c

theorem reaches_after (h : Independent a b) (s : AdminState) (d : Domain) :
    (s.after b).Reaches a d ↔ s.Reaches a d :=
  and_congr_left fun _ => not_congr (lacks_after h s)

theorem on_of_reaches {s : AdminState} {c : Command} {d : Domain} (h : s.Reaches c d) (id : String) :
    (s.execute id c).on d.topic = [d.toJson ((s.after c).value d)] := by
  obtain ⟨n, hs, -⟩ := s.execute_settles id h.1
  have ht := hs.touches (targets_nodup (.execute id c))
  rw [ht.on_domain, if_pos h.2, execute_state]

theorem on_of_not_reaches {s : AdminState} {c : Command} {d : Domain} (h : ¬ s.Reaches c d)
    (id : String) : (s.execute id c).on d.topic = [] ∧ (s.after c).value d = s.value d := by
  rw [← s.execute_state id c]
  by_cases hl : s.Lacks c
  · obtain ⟨hstate, hon⟩ := s.perform_refused (.execute id c) hl
    exact ⟨hon d, congrArg (·.value d) hstate⟩
  · have hd : d ∉ commandTargets c := fun hd => h ⟨hl, hd⟩
    obtain ⟨n, hs, -⟩ := s.execute_settles id hl
    have ht := hs.touches (targets_nodup (.execute id c))
    exact ⟨by rw [ht.on_domain, if_neg hd], ht.others d hd⟩

/-- What two commands in a row push of a domain. -/
def pushedBy (s : AdminState) (i : String) (a : Command) (j : String) (b : Command) (d : Domain) :
    List Json :=
  (s.execute i a).on d.topic ++ ((s.execute i a).state.execute j b).on d.topic

theorem getLast?_pushedBy (h : Independent a b) (s : AdminState) (i j : String) (d : Domain) :
    (s.pushedBy i a j b d).getLast? = (s.pushedBy j b i a d).getLast? := by
  have hra := reaches_after h s d
  have hrb := reaches_after h.symm s d
  have hboth : ((s.after a).after b).value d = ((s.after b).after a).value d := by
    rw [after_comm h]
  simp only [pushedBy, execute_state]
  -- Where both reach the domain, the later one pushes the value that both have led to. Where one does,
  -- the other leaves the value alone, so it is pushed as it is in the end.
  by_cases ha : s.Reaches a d <;> by_cases hb : s.Reaches b d
  · rw [on_of_reaches ha, on_of_reaches hb, on_of_reaches (hra.mpr ha), on_of_reaches (hrb.mpr hb),
      hboth]
    rfl
  · obtain ⟨hfirst, -⟩ := on_of_not_reaches hb j
    obtain ⟨hsecond, hkept⟩ := on_of_not_reaches (mt hrb.mp hb) j
    rw [on_of_reaches ha, on_of_reaches (hra.mpr ha), hfirst, hsecond, ← hboth, hkept]
    rfl
  · obtain ⟨hfirst, -⟩ := on_of_not_reaches ha i
    obtain ⟨hsecond, hkept⟩ := on_of_not_reaches (mt hra.mp ha) i
    rw [on_of_reaches hb, on_of_reaches (hrb.mpr hb), hfirst, hsecond, hboth, hkept]
    rfl
  · rw [(on_of_not_reaches ha i).1, (on_of_not_reaches hb j).1,
      (on_of_not_reaches (mt hra.mp ha) i).1, (on_of_not_reaches (mt hrb.mp hb) j).1]

end AdminState

namespace Server

theorem execute_envelope (s : Server) (id : String) (c : Command) :
    (s.execute id c).1.envelope = s.envelope := by
  simp only [execute, adopt, foldl_emit]

theorem find?_execute {s : Server} {id : Nat} {sub : Delivery.Subscription}
    (hf : s.registry.find? id = some sub) (hopen : sub.senderOpen = true) (hheld : sub.held = true)
    (i : String) (a : Command) :
    (s.execute i a).1.registry.find? id =
      some { sub with
        pending := sub.pending ++ ((s.state.execute i a).on sub.topic).map s.envelope.wrap } := by
  rw [Outcome.on_wrap]
  exact find?_adopt_open hf hopen hheld _

/-- An open subscription gets what both commands push on its topic, in the order of the commands. -/
theorem find?_execute_execute {s : Server} {id : Nat} {sub : Delivery.Subscription} {d : Domain}
    (hf : s.registry.find? id = some sub) (hopen : sub.senderOpen = true) (hheld : sub.held = true)
    (ht : sub.topic = d.topic) (i : String) (a : Command) (j : String) (b : Command) :
    ((s.execute i a).1.execute j b).1.registry.find? id =
      some { sub with
        pending := sub.pending ++ (s.state.pushedBy i a j b d).map s.envelope.wrap } := by
  rw [find?_execute (find?_execute hf hopen hheld i a) hopen hheld, execute_envelope, execute_after,
    AdminState.pushedBy, AdminState.execute_state, List.map_append, List.append_assoc, ht]

/-- Independent commands can be carried out in either order. The state in the end is the same; each
command finds what it is for and is answered as if it came alone; and of every domain the same value is
pushed last, so that the last thing a subscriber hears is the same. -/
theorem execute_comm (s : Server) {a b : Command} (h : Independent a b) (i j : String) :
    let first := (s.execute i a).1
    let other := (s.execute j b).1
    (first.execute j b).1.state = (other.execute i a).1.state ∧
      (other.state.Lacks a ↔ s.state.Lacks a) ∧ (first.state.Lacks b ↔ s.state.Lacks b) ∧
      (other.state.execute i a).on .notification = (s.state.execute i a).on .notification ∧
      (first.state.execute j b).on .notification = (s.state.execute j b).on .notification ∧
      ∀ d : Domain, (s.state.pushedBy i a j b d).getLast? = (s.state.pushedBy j b i a d).getLast? ∧
        ∀ id sub, s.registry.find? id = some sub → sub.senderOpen = true → sub.held = true →
          sub.topic = d.topic →
          ∃ x y, (first.execute j b).1.registry.find? id = some x ∧
            (other.execute i a).1.registry.find? id = some y ∧
            x.pending.getLast? = y.pending.getLast? := by
  intro first other
  have hfirst : first.state = s.state.after a := s.execute_after i a
  have hother : other.state = s.state.after b := s.execute_after j b
  have hla : other.state.Lacks a ↔ s.state.Lacks a := hother ▸ AdminState.lacks_after h s.state
  have hlb : first.state.Lacks b ↔ s.state.Lacks b := hfirst ▸ AdminState.lacks_after h.symm s.state
  refine ⟨?_, hla, hlb, AdminState.execute_on_notification i hla,
    AdminState.execute_on_notification j hlb, fun d => ?_⟩
  · rw [first.execute_after, other.execute_after, hfirst, hother, AdminState.after_comm h]
  · have hlast := AdminState.getLast?_pushedBy h s.state i j d
    refine ⟨hlast, fun id sub hf hopen hheld ht => ⟨_, _,
      find?_execute_execute hf hopen hheld ht i a j b,
      find?_execute_execute hf hopen hheld ht j b i a, ?_⟩⟩
    simp only [List.getLast?_append, List.getLast?_map, hlast]

/-- One of two bans of the same client is lifted while another client is banned. -/
theorem execute_comm_ban_unban :
    let banned : Ban := ⟨"2", "Cobra", "0.0.0.0", "spam"⟩
    let clients := (ClientTable.add { capacity := 4 } ⟨"Viper", "F-16C", "Blue", false⟩).2
    let s : Server := { state := { bans := [banned, banned], clients } }
    let a : Command := .ban "1" "afk"
    let b : Command := .unban "2"
    Independent a b ∧
      ((s.execute "x" a).1.execute "y" b).1.state = ((s.execute "y" b).1.execute "x" a).1.state ∧
      ((s.execute "y" b).1.execute "x" a).1.state.bans.map Ban.id = ["2", "1"] := by
  intro banned clients s a b
  have h : Independent a b := .subjects rfl rfl (by decide) (by decide)
  exact ⟨h, (execute_comm s h "x" "y").1, by decide +kernel⟩

end Server

end Service

end VoiceAdmin
