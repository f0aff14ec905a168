import VoiceAdmin.Domain.Remote
import VoiceAdmin.Domain.Topic

namespace VoiceAdmin.Sync

/-- The timing of mounted views, in milliseconds. -/
structure Config where
  /-- The time between two periodic pulls of a domain. -/
  poll : Nat := 3000
  /-- How long a notification is shown. -/
  ttl : Nat := 8000
deriving DecidableEq, Repr, Inhabited

inductive SyncError where
  | subscribe (topic : Topic) (cause : RemoteError)
  | zeroPoll
  | closed (session : String)
deriving DecidableEq, Repr, Inhabited

def SyncError.message : SyncError → String
  | .subscribe topic cause => "failed to subscribe to " ++ topic.event ++ ": " ++ cause.message
  | .zeroPoll => "poll interval must be non-zero"
  | .closed session => session ++ " session is no longer running"

end VoiceAdmin.Sync
