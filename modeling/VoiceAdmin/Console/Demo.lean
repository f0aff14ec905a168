import VoiceAdmin.Frequency.Draft
import VoiceAdmin.Journal
import VoiceAdmin.Request

namespace VoiceAdmin.Console

/-- One thing that a script does. -/
inductive Act where
  | say (text : String)
  | ask (request : Request)
  /-- Types a frequency into the form, adds it to the current lists and saves them. -/
  | addFrequency (band : Band) (typed : String)
  | setAvailable (available : Bool)
  | announce (notice : Notice)
  | pause (ms : Nat)

/-- The request that saves the lists with one more frequency typed in. -/
def frequencyRequest (lists : Frequencies) (band : Band) (typed : String) :
    Except Frequency.RangeError Request := do
  let form : Frequency.Form := { band, editor := Frequency.Editor.type {} typed }
  let (added, draft) := (Frequency.Draft.ofFrequencies lists).add (← form.submit)
  added
  return .saveFrequencies draft.lists

/-- The pause between two commands of the script. -/
def demoPause : Nat := 2000

/-- A request with the pause after it, if there is a client to name in it. -/
def askAbout (client : Option String) (request : String → Request) : List Act :=
  match client with
  | some id => [.ask (request id), .pause demoPause]
  | none => []

/-- The script for the clients with the given ids; the service stays away for two polls. -/
def demo (clients : List String) (poll : Nat) : List Act :=
  [.say "Demo: starting", .ask .startServer, .pause demoPause]
    ++ askAbout clients[0]? .mute
    ++ askAbout clients[1]? (.kick · "Demo kick")
    ++ askAbout clients[2]? (.ban · "Demo ban")
    ++ [.ask (.ban "404" "Demo ban"), .pause demoPause,
      .ask (.addCoalition ⟨"Green", "Neutral coalition", "#00ff00", "green"⟩), .pause demoPause,
      .addFrequency .global "251000", .pause demoPause,
      .say "Demo: admin service going away", .setAvailable false, .pause (2 * poll),
      .setAvailable true, .say "Demo: admin service back",
      .announce ⟨"Demo", "Demo sequence complete", .info⟩, .pause demoPause,
      .ask .stopServer]

end VoiceAdmin.Console
