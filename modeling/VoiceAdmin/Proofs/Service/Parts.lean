import VoiceAdmin.Proofs.Service.Pushes

namespace VoiceAdmin

namespace Command

def onStatus : Command → Status → Status
  | .startServer, _ => .all .running
  | .stopServer, _ => .all .stopped
  | _, status => status

def onServers : Command → Endpoints → Endpoints
  | .saveSettings servers, _ => servers
  | _, servers => servers

def onFrequencies : Command → Frequencies → Frequencies
  | .saveFrequencies frequencies, _ => frequencies
  | _, frequencies => frequencies

def onCoalitions : Command → List Coalition → List Coalition
  | .addCoalition coalition, l => l ++ [coalition]
  | .updateCoalition coalition, l => Service.AdminState.replaceFirst coalition l
  | .removeCoalition coalition, l => l.filter (· != coalition)
  | _, l => l

def onAttached : Command → Service.Attached → Service.Attached
  | .kick client _, a | .ban client _, a => a.erase client
  | .mute client, a => a.setMuted client true
  | .unmute client, a => a.setMuted client false
  | _, a => a

/-- The clients as they are shown afterwards. -/
def onRoster : Command → Roster → Roster
  | .kick client _, r | .ban client _, r => r.erase client
  | .mute client, r => r.modify client fun c => { c with muted := true }
  | .unmute client, r => r.modify client fun c => { c with muted := false }
  | _, r => r

theorem roster_onAttached (c : Command) (a : Service.Attached) :
    (c.onAttached a).roster = c.onRoster a.roster := by
  cases c with
  | kick client reason | ban client reason => exact a.roster_erase client
  | mute client => exact a.roster_setMuted client true
  | unmute client => exact a.roster_setMuted client false
  | _ => rfl

/-- The ban of a client who is connected, under the name that is shown. -/
def banEntry (r : Roster) (client reason : String) : List Ban :=
  (r.find? client).toList.map fun banned => ⟨client, banned.name, "0.0.0.0", reason⟩

def onBans : Command → Roster → List Ban → List Ban
  | .ban client reason, r, l => l ++ banEntry r client reason
  | .unban id, _, l => l.eraseP fun ban => ban.id = id
  | _, _, l => l

end Command

namespace Service.AdminState

/-- The state after a command, part by part. A command that does not find what it is for needs no case of
its own: to erase, change or replace what is not there does nothing anyway. -/
def after (s : AdminState) (command : Command) : AdminState where
  status := command.onStatus s.status
  settings := ⟨command.onServers s.settings.servers, command.onFrequencies s.settings.frequencies⟩
  coalitions := command.onCoalitions s.coalitions
  bans := command.onBans s.clients.roster s.bans
  clients := { s.clients with attached := command.onAttached s.clients.attached }

variable {s : AdminState}

theorem after_roster (s : AdminState) (command : Command) :
    (s.after command).clients.roster = command.onRoster s.clients.roster :=
  command.roster_onAttached _

theorem mute_state (s : AdminState) (id client : String) (muted : Bool) :
    (s.mute id client muted).state =
      { s with
        clients := { s.clients with attached := s.clients.attached.setMuted client muted } } := by
  by_cases h : client ∈ s.clients.roster.ids
  · simp only [mute, ClientTable.setMuted_present h]
  · simp only [mute, ClientTable.setMuted_absent h, notFound, Attached.setMuted_absent h]

theorem execute_state (s : AdminState) (id : String) (command : Command) :
    (s.execute id command).state = s.after command := by
  cases command with
  | startServer | stopServer | addCoalition | saveSettings | saveFrequencies | notify => rfl
  | kick client reason =>
    simp only [execute, ClientTable.remove]
    cases s.clients.find? client with
    | none | some => rfl
  | ban client reason =>
    simp only [execute, ClientTable.remove, ClientTable.find?_eq, after, Command.onBans, Command.banEntry]
    cases s.clients.roster.find? client with
    | none =>
      simp only [Option.map_none, notFound, Option.toList_none, List.map_nil, List.append_nil]
      rfl
    | some banned => rfl
  | unban banned =>
    simp only [execute, removeBan]
    cases s.bans.find? fun ban => ban.id = banned with
    | none | some => rfl
  | mute client => exact s.mute_state id client true
  | unmute client => exact s.mute_state id client false
  | updateCoalition coalition =>
    by_cases h : coalition.name ∈ s.coalitions.map Coalition.name
    · simp only [execute, updateCoalition_present h]
      rfl
    · simp only [execute, updateCoalition_absent h, after, Command.onCoalitions,
        replaceFirst_absent h]
      rfl
  | removeCoalition coalition =>
    by_cases h : coalition ∈ s.coalitions
    · simp only [execute, removeCoalition_present h]
      rfl
    · simp only [execute, removeCoalition_absent h, after, Command.onCoalitions,
        filter_absent h]
      rfl

end Service.AdminState

theorem Service.Server.execute_after (s : Server) (id : String) (command : Command) :
    (s.execute id command).1.state = s.state.after command :=
  (s.adopt_state _).trans (s.state.execute_state id command)

end VoiceAdmin
