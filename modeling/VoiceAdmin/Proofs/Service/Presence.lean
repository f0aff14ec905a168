import VoiceAdmin.Domain.Command
import VoiceAdmin.Proofs.Keyed
import VoiceAdmin.Service.State

namespace VoiceAdmin.Service

namespace Attached

variable {a b : Attached} {id : String}

/-- Whatever is stored can be told from what is shown. -/
theorem entries_eq (a : Attached) : a.table.entries = a.roster.entries.map fun e => (e.1, ⟨e.1, e.2⟩) := by
  rw [roster, Keyed.map, List.map_map]
  refine (List.map_id _).symm.trans (List.map_congr_left fun e he => ?_)
  exact Prod.ext rfl (congrArg (VoiceClient.mk · e.2.state) (a.stored e he))

theorem ext_roster (h : a.roster = b.roster) : a = b := by
  have htable : a.table = b.table := Keyed.ext_entries (by rw [a.entries_eq, b.entries_eq, h])
  cases a
  subst htable
  rfl

theorem find?_eq (a : Attached) (id : String) :
    a.table.find? id = (a.roster.find? id).map (VoiceClient.mk id) := by
  rw [Keyed.find?, a.entries_eq, Keyed.find?]
  induction a.roster.entries with
  | nil => rfl
  | cons e rest ih =>
    rw [List.map_cons, Keyed.lookup_cons_entry, Keyed.lookup_cons_entry, ih]
    split
    · rename_i he
      rw [he]
      rfl
    · rfl

theorem roster_insert (a : Attached) (id : String) (state : Client) :
    (a.insert id state).roster = a.roster.insert id state :=
  Keyed.map_insert _ _ _ _

theorem roster_erase (a : Attached) (id : String) : (a.erase id).roster = a.roster.erase id :=
  Keyed.map_erase _ _ _

theorem roster_setMuted (a : Attached) (id : String) (muted : Bool) :
    (a.setMuted id muted).roster = a.roster.modify id fun client => { client with muted } := by
  refine Keyed.map_modify ?_ a.table id
  exact fun _ => rfl

/-- Nothing is erased where there is nothing. -/
theorem erase_absent (h : id ∉ a.roster.ids) : a.erase id = a :=
  ext_roster ((a.roster_erase id).trans (Keyed.erase_absent h))

theorem setMuted_absent (h : id ∉ a.roster.ids) (muted : Bool) : a.setMuted id muted = a :=
  ext_roster ((a.roster_setMuted id muted).trans (Keyed.modify_absent h _))

end Attached

namespace ClientTable

variable {t : ClientTable} {id : String}

theorem size_eq (t : ClientTable) : t.size = t.roster.size :=
  (Keyed.size_map _ _).symm

theorem roster_insert (t : ClientTable) (id : String) (client : Client) (nextId : UInt32) :
    roster { t with attached := t.attached.insert id client, nextId } = t.roster.insert id client :=
  t.attached.roster_insert id client

theorem roster_erase (t : ClientTable) (id : String) :
    roster { t with attached := t.attached.erase id } = t.roster.erase id :=
  t.attached.roster_erase id

theorem roster_setMuted (t : ClientTable) (id : String) (muted : Bool) :
    roster { t with attached := t.attached.setMuted id muted } =
      t.roster.modify id fun client => { client with muted } :=
  t.attached.roster_setMuted id muted

theorem size_erase_le (t : ClientTable) (id : String) :
    size { t with attached := t.attached.erase id } ≤ t.size :=
  Keyed.size_erase_le _ _

theorem size_setMuted (t : ClientTable) (id : String) (muted : Bool) :
    size { t with attached := t.attached.setMuted id muted } = t.size :=
  Keyed.size_modify _ _ _

theorem size_insert (h : id ∉ t.roster.ids) (client : Client) (nextId : UInt32) :
    size { t with attached := t.attached.insert id client, nextId } = t.size + 1 := by
  rw [size_eq, roster_insert, Keyed.size_insert h, size_eq]

theorem find?_eq (t : ClientTable) (id : String) :
    t.find? id = (t.roster.find? id).map (VoiceClient.mk id) :=
  t.attached.find?_eq id

theorem add_full (h : t.capacity ≤ t.size) (client : Client) : t.add client = (none, t) :=
  if_pos h

theorem add_room (h : t.size < t.capacity) (client : Client) :
    t.add client = (some (toString t.nextId.toNat),
      { t with
        attached := t.attached.insert (toString t.nextId.toNat) client
        nextId := t.nextId + 1 }) :=
  if_neg (Nat.not_le.mpr h)

theorem remove_absent (h : id ∉ t.roster.ids) : t.remove id = (none, t) := by
  have herase : t.attached.erase id = t.attached := Attached.erase_absent h
  rw [remove, find?_eq, Keyed.find?_eq_none.mpr h, herase]
  rfl

theorem remove_present (h : id ∈ t.roster.ids) :
    ∃ client, t.remove id = (some ⟨id, client⟩, { t with attached := t.attached.erase id }) := by
  obtain ⟨client, hf⟩ := Keyed.find?_mem h
  refine ⟨client, ?_⟩
  rw [remove, find?_eq, hf]
  rfl

theorem setMuted_absent (h : id ∉ t.roster.ids) (muted : Bool) : t.setMuted id muted = (false, t) := by
  simp [setMuted, find?_eq, Keyed.find?_eq_none.mpr h]

theorem setMuted_present (h : id ∈ t.roster.ids) (muted : Bool) :
    t.setMuted id muted = (true, { t with attached := t.attached.setMuted id muted }) := by
  obtain ⟨client, hf⟩ := Keyed.find?_mem h
  simp [setMuted, find?_eq, hf]

end ClientTable

namespace AdminState

variable {s : AdminState}

theorem eraseP_absent {id : String} {l : List Ban} (h : id ∉ l.map Ban.id) :
    (l.eraseP fun ban => ban.id = id) = l := by
  refine List.eraseP_of_forall_not fun ban hb he => h ?_
  exact List.mem_map.mpr ⟨ban, hb, of_decide_eq_true he⟩

theorem removeBan_absent {id : String} (h : id ∉ s.bans.map Ban.id) : s.removeBan id = (none, s) := by
  have hf : s.bans.find? (fun ban => ban.id = id) = none := by
    simpa using h
  rw [removeBan, hf, eraseP_absent h]

/-- The first of the bans with that id goes. -/
theorem removeBan_present {id : String} (h : id ∈ s.bans.map Ban.id) :
    ∃ ban before after, s.bans = before ++ ban :: after ∧ ban.id = id ∧
      s.removeBan id = (some ban, { s with bans := before ++ after }) := by
  cases hf : s.bans.find? fun ban => ban.id = id with
  | none => exact absurd h (by simpa using hf)
  | some ban =>
    obtain ⟨hp, before, after, hbans, hbefore⟩ := List.find?_eq_some_iff_append.mp hf
    have hid : ban.id = id := by simpa using hp
    have herase : s.bans.eraseP (fun ban => ban.id = id) = before ++ after := by
      rw [hbans, List.eraseP_append_right _ (by simpa using hbefore)]
      simp [hid]
    exact ⟨ban, before, after, hbans, hid, by simp [removeBan, hf, herase]⟩

theorem replaceFirst_absent {coalition : Coalition} {l : List Coalition}
    (h : coalition.name ∉ l.map Coalition.name) : replaceFirst coalition l = l := by
  induction l with
  | nil => rfl
  | cons c rest ih =>
    simp only [List.map_cons, List.mem_cons, not_or] at h
    rw [replaceFirst, if_neg (Ne.symm h.1), ih h.2]

theorem updateCoalition_absent {coalition : Coalition}
    (h : coalition.name ∉ s.coalitions.map Coalition.name) :
    s.updateCoalition coalition = (false, s) := by
  have hany : (s.coalitions.any fun c => c.name = coalition.name) = false := by
    simpa using h
  rw [updateCoalition, hany, replaceFirst_absent h]

theorem updateCoalition_present {coalition : Coalition}
    (h : coalition.name ∈ s.coalitions.map Coalition.name) :
    s.updateCoalition coalition =
      (true, { s with coalitions := replaceFirst coalition s.coalitions }) := by
  have hany : (s.coalitions.any fun c => c.name = coalition.name) = true := by
    simpa using h
  rw [updateCoalition, hany]

theorem filter_absent {coalition : Coalition} {l : List Coalition} (h : coalition ∉ l) :
    l.filter (· != coalition) = l := by
  refine List.filter_eq_self.mpr fun c hc => bne_iff_ne.mpr ?_
  rintro rfl
  exact h hc

theorem removeCoalition_absent {coalition : Coalition} (h : coalition ∉ s.coalitions) :
    s.removeCoalition coalition = (false, s) := by
  rw [removeCoalition, filter_absent h]
  simpa using h

theorem removeCoalition_present {coalition : Coalition} (h : coalition ∈ s.coalitions) :
    s.removeCoalition coalition =
      (true, { s with coalitions := s.coalitions.filter (· != coalition) }) := by
  simpa [removeCoalition] using h

/-- What a command is for is not there: no client or ban of its id, no coalition of its name, no equal
coalition. The other commands want nothing. -/
def Lacks (s : AdminState) : Command → Prop
  | .kick client _ | .ban client _ | .mute client | .unmute client => client ∉ s.clients.roster.ids
  | .unban id => id ∉ s.bans.map Ban.id
  | .updateCoalition coalition => coalition.name ∉ s.coalitions.map Coalition.name
  | .removeCoalition coalition => coalition ∉ s.coalitions
  | _ => False

end AdminState

end VoiceAdmin.Service
