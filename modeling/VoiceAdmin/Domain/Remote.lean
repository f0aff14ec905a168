namespace VoiceAdmin

/-- How a call to the remote side can fail. -/
inductive RemoteError where
  | unavailable (reason : String)
  | transport (reason : String)
  | rejected (reason : String)
deriving DecidableEq, Repr, Inhabited

def RemoteError.message : RemoteError → String
  | .unavailable reason => "remote service unavailable: " ++ reason
  | .transport reason => "transport error: " ++ reason
  | .rejected reason => "command rejected: " ++ reason

end VoiceAdmin
