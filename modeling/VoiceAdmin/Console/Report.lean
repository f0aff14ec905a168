import VoiceAdmin.Alerts.Queue
import VoiceAdmin.Domain.Kind
import VoiceAdmin.Frequency.Mask
import VoiceAdmin.Journal

namespace VoiceAdmin.Console

def statusLines (s : Status) : List Line :=
  .info ("Status: http=" ++ toString s.http.isRunning ++ " voice=" ++ toString s.voice.isRunning ++
      " control=" ++ toString s.control.isRunning)
    :: s.errors.map fun (component, error) => .warning (component ++ " error: " ++ error)

def settingsLines (s : Settings) : List Line :=
  [.info ("Settings: http port " ++ toString s.servers.http.port.toNat ++ ", global frequencies [" ++
    ", ".intercalate (s.frequencies.global.map Frequency.format) ++ "]")]

def rosterLines (r : Roster) : List Line :=
  .info ("Roster: " ++ toString r.size ++ " client(s)")
    :: r.entries.map fun (id, client) =>
      .info ("  [" ++ id ++ "] " ++ client.name ++ " (" ++ client.coalition ++ ")" ++
        if client.muted then " muted" else "")

def coalitionLines (l : List Coalition) : List Line :=
  [.info ("Coalitions: " ++ ", ".intercalate (l.map Coalition.name))]

def banLines (l : List Ban) : List Line :=
  [.info ("Bans: " ++ toString l.length)]

def viewLines : (d : Domain) → d.Value → List Line
  | .status, value => statusLines value
  | .settings, value => settingsLines value
  | .roster, value => rosterLines value
  | .coalitions, value => coalitionLines value
  | .bans, value => banLines value

/-- All notifications that are shown, each time one of them changes. -/
def noteLines (entries : List Alerts.Entry) : List Line :=
  entries.map fun e =>
    .info ("Notification [" ++ e.notification.level.label ++ "] " ++ e.notification.title ++ ": " ++
      e.notification.message)

end VoiceAdmin.Console
