import VoiceAdmin.Domain.Command
import VoiceAdmin.Journal
import VoiceAdmin.Payload.Push
import VoiceAdmin.Service.State

namespace VoiceAdmin.Service

/-- The effect of an operation. -/
structure Outcome where
  state : AdminState
  pushes : List Push := []
  journal : List Line := []
deriving Inhabited

namespace AdminState

/-- The current value of a domain, for its subscribers. -/
def push (s : AdminState) (d : Domain) : Push := .snapshot d (s.value d)

/-- A command for a client or a ban that is not there. -/
def notFound (s : AdminState) (id title client : String) : Outcome where
  state := s
  pushes := [.announce ((Notice.mk title "Client not found" .error).withId id)]
  journal := [.error (title ++ ": no client " ++ client)]

/-- A client joins and the new roster is pushed; a full table changes nothing. -/
def connect (s : AdminState) (client : Client) : Option String × Outcome :=
  match s.clients.add client with
  | (none, clients) => (none, { state := { s with clients } })
  | (some id, clients) =>
    let s := { s with clients }
    (some id,
      { state := s, pushes := [s.push .roster],
        journal := [.info ("Client " ++ id ++ " (" ++ client.name ++ ") connected")] })

def setStatus (s : AdminState) (status : Status) : Outcome :=
  let s := { s with status }
  { state := s, pushes := [s.push .status] }

/-- Sets or clears the mute flag of a client. -/
def mute (s : AdminState) (id client : String) (muted : Bool) : Outcome :=
  let (verb, title) := if muted then ("muted", "Mute") else ("unmuted", "Unmute")
  match s.clients.setMuted client muted with
  | (true, clients) =>
    let s := { s with clients }
    { state := s
      pushes := [s.push .roster,
        .announce ((Notice.mk (title ++ " succeeded") ("Client " ++ verb ++ " successfully") .success).withId id)]
      journal := [.info ("Client " ++ client ++ " " ++ verb)] }
  | (false, clients) => notFound { s with clients } id (title ++ " failed") client

/-- The new coalitions with a notification about the one that changed. -/
def coalitionsChanged (s : AdminState) (id verb name : String) : Outcome where
  state := s
  pushes := [s.push .coalitions,
    .announce ((Notice.mk ("Coalition " ++ verb) ("Coalition " ++ name ++ " " ++ verb) .info).withId id)]

/-- Carries out a command. A notification that it raises gets the id given. Every value pushed is that of
the state after the command. A command that finds its target ends with a push of each domain that it
touches and a notification; one that does not leaves the state alone and says so in a notification. -/
def execute (s : AdminState) (id : String) : Command → Outcome
  | .startServer =>
    let s := s.setRunning true
    { state := s
      pushes := [s.push .status,
        .announce ((Notice.mk "Server started" "All services are running" .success).withId id)] }
  | .stopServer =>
    let s := s.setRunning false
    { state := s
      pushes := [s.push .status,
        .announce ((Notice.mk "Server stopped" "All services are stopped" .success).withId id)] }
  | .kick client reason =>
    match s.clients.remove client with
    | (some kicked, clients) =>
      let s := { s with clients }
      { state := s
        pushes := [s.push .roster,
          .announce ((Notice.mk "Kick succeeded" "Client kicked successfully" .success).withId id)]
        journal := [.info ("Client " ++ kicked.id ++ " disconnected"),
          .info ("Client " ++ client ++ " kicked: " ++ reason)] }
    | (none, clients) => notFound { s with clients } id "Kick failed" client
  | .ban client reason =>
    match s.clients.remove client with
    | (some banned, clients) =>
      let ban : Ban := ⟨client, banned.state.name, "0.0.0.0", reason⟩
      let s := { s with clients, bans := s.bans ++ [ban] }
      { state := s
        pushes := [s.push .roster, s.push .bans,
          .announce ((Notice.mk "Ban succeeded" "Client banned successfully" .success).withId id)]
        journal := [.info ("Client " ++ banned.id ++ " disconnected"),
          .info ("Client " ++ client ++ " banned: " ++ reason)] }
    | (none, clients) => notFound { s with clients } id "Ban failed" client
  | .unban banned =>
    match s.removeBan banned with
    | (some _, s) =>
      { state := s
        pushes := [s.push .bans,
          .announce ((Notice.mk "Unban succeeded" "Client successfully unbanned" .success).withId id)]
        journal := [.info ("Client " ++ banned ++ " unbanned")] }
    | (none, s) => notFound s id "Unban failed" banned
  | .mute client => mute s id client true
  | .unmute client => mute s id client false
  | .addCoalition coalition =>
    coalitionsChanged { s with coalitions := s.coalitions ++ [coalition] } id "added" coalition.name
  | .updateCoalition coalition =>
    match s.updateCoalition coalition with
    | (true, s) => coalitionsChanged s id "updated" coalition.name
    | (false, s) =>
      { state := s
        pushes := [.announce ((Notice.mk "Coalition update failed"
          ("Coalition " ++ coalition.name ++ " not found") .error).withId id)]
        journal := [.warning ("No coalition named " ++ coalition.name)] }
  | .removeCoalition coalition =>
    match s.removeCoalition coalition with
    | (true, s) => coalitionsChanged s id "removed" coalition.name
    | (false, s) => { state := s }
  | .saveSettings servers =>
    let s := { s with settings := { s.settings with servers } }
    { state := s
      pushes := [s.push .settings,
        .announce ((Notice.mk "Settings saved" "Server settings saved" .info).withId id)] }
  | .saveFrequencies frequencies =>
    let s := { s with settings := { s.settings with frequencies } }
    { state := s
      pushes := [s.push .settings,
        .announce ((Notice.mk "Frequencies saved" "Frequency lists saved" .info).withId id)] }
  | .notify notification => { state := s, pushes := [.announce notification] }

end AdminState

end VoiceAdmin.Service
