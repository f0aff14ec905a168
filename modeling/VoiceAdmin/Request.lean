import VoiceAdmin.Domain.Command
import VoiceAdmin.Domain.Remote
import VoiceAdmin.Domain.Status
import VoiceAdmin.Text.Blank

namespace VoiceAdmin

/-- What the admin surface is asked to do. A request is checked before it becomes a command; one that is
refused is answered with an alert and never leaves the console. -/
inductive Request where
  | startServer
  | stopServer
  /-- Stops the server if any component runs, else starts it. -/
  | toggleServer (status : Status)
  | kick (client reason : String)
  | ban (client reason : String)
  | unban (id : String)
  | mute (client : String)
  | unmute (client : String)
  | addCoalition (coalition : Coalition)
  | updateCoalition (coalition : Coalition)
  | removeCoalition (coalition : Coalition)
  | saveSettings (servers : Endpoints)
  | saveFrequencies (frequencies : Frequencies)
  | notify (notification : Notification)
  | dispatch (command : Command)

inductive Refusal where
  | noClient
  | noReason
  | invalidCoalition (missing : MissingField)
deriving DecidableEq, Repr

def Refusal.notice : Refusal → Notice
  | .noClient => ⟨"No client selected", "Select a client first", .error⟩
  | .noReason => ⟨"Reason required", "Enter a reason", .error⟩
  | .invalidCoalition missing => ⟨"Invalid coalition", missing.message, .error⟩

namespace Request

def requireClient (client : String) : Except Refusal Unit :=
  if Text.isBlank client then .error .noClient else .ok ()

def requireReason (reason : String) : Except Refusal Unit :=
  if Text.isBlank reason then .error .noReason else .ok ()

def requireValid (coalition : Coalition) : Except Refusal Unit :=
  coalition.validate.mapError .invalidCoalition

/-- The command that a request stands for. -/
def command : Request → Except Refusal Command
  | .startServer => .ok .startServer
  | .stopServer => .ok .stopServer
  | .toggleServer status => .ok (if status.anyRunning then .stopServer else .startServer)
  | .kick client reason => do
    requireClient client
    requireReason reason
    return .kick client (Text.trim reason)
  | .ban client reason => do
    requireClient client
    requireReason reason
    return .ban client (Text.trim reason)
  | .unban id => do
    requireClient id
    return .unban id
  | .mute client => do
    requireClient client
    return .mute client
  | .unmute client => do
    requireClient client
    return .unmute client
  | .addCoalition coalition => do
    requireValid coalition
    return .addCoalition coalition
  | .updateCoalition coalition => do
    requireValid coalition
    return .updateCoalition coalition
  | .removeCoalition coalition => .ok (.removeCoalition coalition)
  | .saveSettings servers => .ok (.saveSettings servers)
  | .saveFrequencies frequencies => .ok (.saveFrequencies frequencies)
  | .notify notification => .ok (.notify notification)
  | .dispatch command => .ok command

end Request

/-- The alert about a command that failed at the remote side. -/
def Command.failure (command : Command) (error : RemoteError) : Notice :=
  ⟨command.describe ++ " failed", error.message, .error⟩

end VoiceAdmin
