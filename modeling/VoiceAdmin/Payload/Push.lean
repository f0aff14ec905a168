import VoiceAdmin.Domain.Kind
import VoiceAdmin.Domain.Notification

namespace VoiceAdmin

/-- What is sent to the subscribers of a topic, before it gets an envelope. -/
structure Push where
  topic : Topic
  payload : Json
deriving Inhabited

namespace Push

/-- A snapshot of a domain. -/
def snapshot (d : Domain) (value : d.Value) : Push := ⟨d.topic, d.toJson value⟩

def announce (notification : Notification) : Push := ⟨.notification, notification.toJson⟩

end Push

end VoiceAdmin
