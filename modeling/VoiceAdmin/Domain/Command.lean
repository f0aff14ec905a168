import VoiceAdmin.Domain.Coalition
import VoiceAdmin.Domain.Notification
import VoiceAdmin.Domain.Settings

namespace VoiceAdmin

/-- The commands of the admin surface. A command returns nothing: what it did shows in later pushes and
pulls. -/
inductive Command where
  | startServer
  | stopServer
  | kick (client reason : String)
  | ban (client reason : String)
  | unban (id : String)
  | mute (client : String)
  | unmute (client : String)
  | addCoalition (coalition : Coalition)
  | updateCoalition (coalition : Coalition)
  | removeCoalition (coalition : Coalition)
  | saveSettings (servers : Endpoints)
  | saveFrequencies (frequencies : Frequencies)
  | notify (notification : Notification)
deriving BEq, Inhabited

namespace Command

/-- The label under which a failed command is reported. -/
def describe : Command → String
  | .startServer => "Start server"
  | .stopServer => "Stop server"
  | .kick client _ => "Kick client " ++ client
  | .ban client _ => "Ban client " ++ client
  | .unban id => "Unban client " ++ id
  | .mute client => "Mute client " ++ client
  | .unmute client => "Unmute client " ++ client
  | .addCoalition c => "Add coalition " ++ c.name
  | .updateCoalition c => "Update coalition " ++ c.name
  | .removeCoalition c => "Remove coalition " ++ c.name
  | .saveSettings _ => "Save server settings"
  | .saveFrequencies _ => "Save frequencies"
  | .notify _ => "Send notification"

def toJson : Command → Json
  | .startServer => .text "StartServer"
  | .stopServer => .text "StopServer"
  | .kick client reason =>
    .object [("Kick", .object [("client_id", .text client), ("reason", .text reason)])]
  | .ban client reason =>
    .object [("Ban", .object [("client_id", .text client), ("reason", .text reason)])]
  | .unban id => .object [("Unban", .object [("id", .text id)])]
  | .mute client => .object [("Mute", .object [("client_id", .text client)])]
  | .unmute client => .object [("Unmute", .object [("client_id", .text client)])]
  | .addCoalition c => .object [("AddCoalition", c.toJson)]
  | .updateCoalition c => .object [("UpdateCoalition", c.toJson)]
  | .removeCoalition c => .object [("RemoveCoalition", c.toJson)]
  | .saveSettings servers => .object [("SaveSettings", servers.toJson)]
  | .saveFrequencies frequencies => .object [("SaveFrequencies", frequencies.toJson)]
  | .notify n => .object [("Notify", n.toJson)]

/-- Fields that name a client and a reason. -/
def clientAndReason (make : String → String → Command) : Schema.Fields Command :=
  (Schema.Fields.start make).field "client_id" Schema.text |>.field "reason" Schema.text

def client (make : String → Command) : Schema.Fields Command :=
  (Schema.Fields.start make).field "client_id" Schema.text

/-- What a reader makes, put into a command. -/
def carrying (make : α → Command) (read : Schema.Reader α) : Schema.Variant Command :=
  .content fun value => make <$> read value

def variants : List (String × Schema.Variant Command) :=
  [("StartServer", .bare .startServer),
   ("StopServer", .bare .stopServer),
   ("Kick", .fields (clientAndReason .kick)),
   ("Ban", .fields (clientAndReason .ban)),
   ("Unban", .fields ((Schema.Fields.start Command.unban).field "id" Schema.text)),
   ("Mute", .fields (client .mute)),
   ("Unmute", .fields (client .unmute)),
   ("AddCoalition", carrying .addCoalition Coalition.read),
   ("UpdateCoalition", carrying .updateCoalition Coalition.read),
   ("RemoveCoalition", carrying .removeCoalition Coalition.read),
   ("SaveSettings", carrying .saveSettings Endpoints.read),
   ("SaveFrequencies", carrying .saveFrequencies Frequencies.read),
   ("Notify", carrying .notify Notification.read)]

def read : Schema.Reader Command := Schema.choice variants

end Command

end VoiceAdmin
