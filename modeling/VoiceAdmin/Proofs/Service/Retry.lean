import VoiceAdmin.Proofs.Service.Effects
import VoiceAdmin.Proofs.Service.Ledger
import VoiceAdmin.Proofs.Service.Parts

namespace VoiceAdmin

namespace Command

variable {c : Command}

/-- Whether a command takes a client or a ban away. -/
def removes : Command → Bool
  | .kick _ _ | .ban _ _ | .unban _ => true
  | _ => false

theorem onStatus_twice (c : Command) (status : Status) :
    c.onStatus (c.onStatus status) = c.onStatus status := by
  cases c <;> rfl

theorem onServers_twice (c : Command) (servers : Endpoints) :
    c.onServers (c.onServers servers) = c.onServers servers := by
  cases c <;> rfl

theorem onFrequencies_twice (c : Command) (frequencies : Frequencies) :
    c.onFrequencies (c.onFrequencies frequencies) = c.onFrequencies frequencies := by
  cases c <;> rfl

/-- What was replaced has the same name, and so is the first to be replaced again. -/
theorem replaceFirst_twice (coalition : Coalition) (l : List Coalition) :
    Service.AdminState.replaceFirst coalition (Service.AdminState.replaceFirst coalition l) =
      Service.AdminState.replaceFirst coalition l := by
  induction l with
  | nil => rfl
  | cons first rest ih =>
    by_cases h : first.name = coalition.name
    · simp only [Service.AdminState.replaceFirst, if_pos h, if_true]
    · simp only [Service.AdminState.replaceFirst, if_neg h, ih]

theorem onCoalitions_twice (hadd : ∀ coalition, c ≠ .addCoalition coalition) (l : List Coalition) :
    c.onCoalitions (c.onCoalitions l) = c.onCoalitions l := by
  cases c with
  | addCoalition coalition => exact absurd rfl (hadd coalition)
  | updateCoalition coalition => exact replaceFirst_twice coalition l
  | removeCoalition coalition =>
    simp only [onCoalitions, List.filter_filter, Bool.and_self]
  | _ => rfl

theorem onRoster_twice (c : Command) (r : Roster) : c.onRoster (c.onRoster r) = c.onRoster r := by
  cases c with
  | kick client reason | ban client reason => exact r.erase_erase client
  | mute client | unmute client =>
    refine Keyed.modify_modify ?_ r client
    exact fun _ => rfl
  | _ => rfl

theorem onAttached_twice (c : Command) (a : Service.Attached) :
    c.onAttached (c.onAttached a) = c.onAttached a := by
  refine Service.Attached.ext_roster ?_
  simp only [roster_onAttached, onRoster_twice]

theorem banEntry_erase (r : Roster) (client reason : String) :
    banEntry (r.erase client) client reason = [] := by
  have h : client ∉ (r.erase client).ids := fun hm => (Keyed.mem_ids_erase.mp hm).2 rfl
  rw [banEntry, Keyed.find?_eq_none.mpr h]
  rfl

/-- With distinct ids, nothing is left of an id whose first ban is taken out. -/
theorem not_mem_eraseP {l : List Ban} (h : (l.map Ban.id).Nodup) (id : String) :
    id ∉ (l.eraseP fun ban => ban.id = id).map Ban.id := by
  by_cases hm : id ∈ l.map Ban.id
  · obtain ⟨ban, hban, hid⟩ := List.mem_map.mp hm
    obtain ⟨gone, before, after, -, hgone, rfl, herase⟩ :=
      List.exists_of_eraseP (p := fun ban => ban.id = id) hban (decide_eq_true hid)
    rw [herase, List.map_append, ← of_decide_eq_true hgone]
    rw [List.map_append, List.map_cons, List.nodup_middle] at h
    exact (List.nodup_cons.mp h).1
  · rwa [Service.AdminState.eraseP_absent hm]

theorem onBans_twice (c : Command) (r : Roster) {l : List Ban} (h : (l.map Ban.id).Nodup) :
    c.onBans (c.onRoster r) (c.onBans r l) = c.onBans r l := by
  cases c with
  | ban client reason =>
    simp only [onBans, onRoster, banEntry_erase, List.append_nil]
  | unban id => exact Service.AdminState.eraseP_absent (not_mem_eraseP h id)
  | _ => rfl

end Command

namespace Service

namespace AdminState

variable {s : AdminState} {c : Command}

theorem after_after (h : (s.bans.map Ban.id).Nodup) (hadd : ∀ coalition, c ≠ .addCoalition coalition) :
    (s.after c).after c = s.after c := by
  simp only [after, ClientTable.roster, c.roster_onAttached, c.onStatus_twice, c.onServers_twice,
    c.onFrequencies_twice, Command.onCoalitions_twice hadd, c.onAttached_twice, c.onBans_twice _ h]

/-- What was taken away is not there for a second time. -/
theorem lacks_after_self (h : (s.bans.map Ban.id).Nodup) (hc : c.removes = true) :
    (s.after c).Lacks c := by
  cases c with
  | kick client reason | ban client reason =>
    rw [Lacks, after_roster]
    exact fun hm => (Keyed.mem_ids_erase.mp hm).2 rfl
  | unban id => exact Command.not_mem_eraseP h id
  | _ => cases hc

end AdminState

namespace Ledger

/-- On whatever run, to carry out a command again right away leaves the state as it is, unless it adds a
coalition. Where it took something away, it now says that it did not find it, and pushes no domain. To
lift a ban takes out the first one of that id. That there is no second one to be taken out by the next
attempt is a fact about whole runs: the service never gives out an id twice. -/
theorem run_execute_twice {most : Nat} {server : Server}
    (hstart : server.state = .empty most ∨ server.state = .seeded most) {ops : List Operation}
    (hfew : (run server ops).issued.length < UInt32.size - 1) {c : Command}
    (hadd : ∀ coalition, c ≠ .addCoalition coalition) (i j : String) :
    let once := ((run server ops).server.execute i c).1
    (once.execute j c).1.state = once.state ∧
      (c.removes = true →
        (∃ n : Notification, (once.state.execute j c).on .notification = [n.toJson] ∧
          n.level = .error) ∧
        ∀ d : Domain, (once.state.execute j c).on d.topic = []) := by
  intro once
  have hbans : ((run server ops).server.state.bans.map Ban.id).Nodup :=
    (List.nodup_append.mp (run_balanced hstart hfew).distinct).2.1
  have honce : once.state = (run server ops).server.state.after c := Server.execute_after _ i c
  refine ⟨?_, fun hc => ?_⟩
  · rw [once.execute_after, honce, AdminState.after_after hbans hadd]
  · have hl : once.state.Lacks c := honce ▸ AdminState.lacks_after_self hbans hc
    -- A notice is sent as it is, and to remove a coalition in vain announces nothing.
    have hnotify : ∀ n, c ≠ .notify n := by
      rintro n rfl
      cases hc
    have hremove : ∀ x, c = .removeCoalition x → x ∈ once.state.coalitions := by
      rintro x rfl
      cases hc
    obtain ⟨n, hn, hlevel⟩ := once.state.execute_announces j hnotify hremove
    exact ⟨⟨n, hn, hlevel.mpr hl⟩, (once.state.perform_refused (.execute j c) hl).2⟩

/-- A ban is lifted twice, on a service where the client in question was let in a second time. -/
theorem run_unban_twice :
    let client : Client := ⟨"Viper", "F-16C", "Blue", false⟩
    let ops : List Operation := [.connect client, .execute "a" (.ban "1" "spam"), .connect client]
    let once := ((run { state := .seeded 2 } ops).server.execute "b" (.unban "1")).1
    once.state.bans = [] ∧ (once.execute "c" (.unban "1")).1.state = once.state ∧
      ∃ n : Notification, (once.state.execute "c" (.unban "1")).on .notification = [n.toJson] ∧
        n.level = .error := by
  intro client ops once
  have hfew : (run { state := .seeded 2 } ops).issued.length < UInt32.size - 1 := by
    have hissued : (run { state := .seeded 2 } ops).issued = ["1", "2"] := by decide +kernel
    rw [hissued]
    decide
  obtain ⟨hstate, hanswer⟩ :=
    run_execute_twice (c := .unban "1") (.inr rfl) hfew nofun "b" "c"
  exact ⟨by decide +kernel, hstate, (hanswer rfl).1⟩

end Ledger

end Service

end VoiceAdmin
