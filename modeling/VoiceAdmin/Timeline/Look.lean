import VoiceAdmin.Timeline.World

namespace VoiceAdmin.Timeline.World

/-- What a view shows, when that changed since the last look. -/
def lookView (w : World) (id : Nat) : Option ((d : Domain) × Option d.Value) × World :=
  match w.find? id with
  | some (.session d task) =>
    if task.changed then
      (some ⟨d, task.session.shown⟩, w.setTask id (.session d { task with changed := false }))
    else (none, w)
  | _ => (none, w)

def lookCenter (w : World) (id : Nat) : Option (List Alerts.Entry) × World :=
  match w.find? id with
  | some (.center task) =>
    if task.changed then (some task.center.shown, w.setTask id (.center { task with changed := false }))
    else (none, w)
  | _ => (none, w)

end VoiceAdmin.Timeline.World
