import VoiceAdmin.Payload.Envelope
import VoiceAdmin.Proofs.Domain.Codec

namespace VoiceAdmin

namespace Schema

/-- Nothing can be read there. -/
def Rejects (read : Reader α) (payload : Json) : Prop :=
  ∃ fault, read payload = .error fault

theorem Fields.readObject_error {fields : Fields α} {object : List (String × Json)} (fault : Fault)
    (h : fields.fromObject object = .error fault) : ∃ f, fields.readObject object = .error f := by
  unfold Fields.readObject
  split
  · exact ⟨_, rfl⟩
  · exact ⟨fault, h⟩

theorem list_singleton_error {item : Reader α} {payload : Json} (h : Rejects item payload) :
    Rejects (list item) (.array [payload]) := by
  obtain ⟨fault, h⟩ := h
  exact ⟨fault, by simp only [list, List.mapM_cons, h]; rfl⟩

end Schema

open Schema

theorem readPayload_ok {read : Reader α} {payload : Json} {value : α} (h : read payload = .ok value) :
    readPayload read payload = .ok value := by
  simp [readPayload, h]

theorem readPayload_content {read : Reader α} {payload inner : Json} (h : Rejects read payload)
    (hc : Envelope.content? payload = some inner) : readPayload read payload = read inner := by
  obtain ⟨fault, h⟩ := h
  simp [readPayload, h, hc]

/-- A value is found in every envelope if the two that add something cannot be read themselves. -/
theorem readPayload_wrap {read : Reader α} {payload : Json} {value : α}
    (h : read payload = .ok value) (hdata : Rejects read (.object [("data", payload)]))
    (harray : Rejects read (.array [payload])) (style : Envelope) :
    readPayload read (style.wrap payload) = .ok value := by
  cases style with
  | raw => exact readPayload_ok h
  | data => exact (readPayload_content hdata rfl).trans h
  | array => exact (readPayload_content harray rfl).trans h

theorem Roster.lookup_toJson (entries : List (String × Client)) (key : String) :
    (entries.map fun (id, client) => (id, client.toJson)).lookup key =
      (entries.lookup key).map Client.toJson := by
  induction entries with
  | nil => rfl
  | cons head rest ih =>
    obtain ⟨id, client⟩ := head
    simp only [List.map_cons, List.lookup_cons, ih]
    split <;> rfl

/-- An object of clients is no client: what stands under the first field is not a name. -/
theorem Client.rejects_clients (entries : List (String × Client)) :
    Rejects Client.read (.object (entries.map fun (id, client) => (id, client.toJson))) := by
  have hl := Roster.lookup_toJson entries "Name"
  cases h : entries.lookup "Name" with
  | none =>
    rw [h] at hl
    exact Fields.readObject_error (.missing "Name")
      (by simp [Fields.field, Fields.start, hl]; rfl)
  | some client =>
    rw [h] at hl
    exact Fields.readObject_error (.wrongType .map .text)
      (by simp [Fields.field, Fields.start, hl]; rfl)

theorem Coalition.rejects_coalitions (l : List Coalition) :
    Rejects Coalition.read (.array (l.map Coalition.toJson)) := by
  cases l with
  | nil => exact ⟨_, rfl⟩
  | cons c rest => exact ⟨_, rfl⟩

theorem Ban.rejects_bans (l : List Ban) : Rejects Ban.read (.array (l.map Ban.toJson)) := by
  cases l with
  | nil => exact ⟨_, rfl⟩
  | cons b rest => exact ⟨_, rfl⟩

theorem Notification.rejects_data (n : Notification) :
    Rejects Notification.read (.object [("data", n.toJson)]) :=
  ⟨_, rfl⟩

theorem Notification.rejects_array (n : Notification) :
    Rejects Notification.read (.array [n.toJson]) :=
  ⟨_, rfl⟩

namespace Domain

theorem rejects_data (d : Domain) (value : d.Value) :
    Rejects d.read (.object [("data", d.toJson value)]) := by
  cases d with
  | status => exact ⟨_, rfl⟩
  | settings => exact ⟨_, rfl⟩
  | roster =>
    obtain ⟨fault, hf⟩ := Client.rejects_clients (Keyed.entries value)
    refine ⟨fault, ?_⟩
    simp only [Domain.read, Domain.toJson, Roster.read, Roster.toJson, Schema.entries,
      List.mapM_cons, hf]
    rfl
  | coalitions => exact ⟨_, rfl⟩
  | bans => exact ⟨_, rfl⟩

theorem rejects_array (d : Domain) (value : d.Value) : Rejects d.read (.array [d.toJson value]) := by
  cases d with
  | status => exact ⟨_, rfl⟩
  | settings => exact ⟨_, rfl⟩
  | roster => exact ⟨_, rfl⟩
  | coalitions => exact list_singleton_error (Coalition.rejects_coalitions value)
  | bans => exact list_singleton_error (Ban.rejects_bans value)

/-- Subscribers get the value that was sent. -/
theorem decodePayload_wrap (d : Domain) {value : d.Value} (h : d.Finite value) (style : Envelope) :
    decodePayload d.topic d.read (style.wrap (d.toJson value)) = .ok value := by
  have hr := readPayload_wrap (d.read_toJson h) (d.rejects_data value) (d.rejects_array value) style
  simp only [decodePayload, hr]

end Domain

namespace Topic

/-- What is published on a topic. -/
abbrev Content : Topic → Type
  | .status => Status
  | .settings => Settings
  | .roster => Roster
  | .coalitions => List Coalition
  | .bans => List Ban
  | .notification => Notification

def readContent : (t : Topic) → Schema.Reader t.Content
  | .status => Domain.status.read
  | .settings => Domain.settings.read
  | .roster => Domain.roster.read
  | .coalitions => Domain.coalitions.read
  | .bans => Domain.bans.read
  | .notification => Notification.read

def write : (t : Topic) → t.Content → Json
  | .status, value => Domain.status.toJson value
  | .settings, value => Domain.settings.toJson value
  | .roster, value => Domain.roster.toJson value
  | .coalitions, value => Domain.coalitions.toJson value
  | .bans, value => Domain.bans.toJson value
  | .notification, n => Notification.toJson n

/-- Content that holds no number but finite ones. -/
def Finite : (t : Topic) → t.Content → Prop
  | .settings, value => Frequencies.Finite (Settings.frequencies value)
  | _, _ => True

/-- Whatever is published, in whatever envelope, is read as what it was. A roster may have a client
under any id, `data` among them, and a list may be empty. -/
theorem decodePayload_envelope (t : Topic) {value : t.Content} (h : t.Finite value)
    (style : Envelope) :
    decodePayload t t.readContent (style.wrap (t.write value)) = .ok value := by
  cases t with
  | status => exact Domain.status.decodePayload_wrap trivial style
  | settings => exact Domain.settings.decodePayload_wrap h style
  | roster => exact Domain.roster.decodePayload_wrap trivial style
  | coalitions => exact Domain.coalitions.decodePayload_wrap trivial style
  | bans => exact Domain.bans.decodePayload_wrap trivial style
  | notification =>
    have hr := readPayload_wrap value.read_toJson value.rejects_data value.rejects_array style
    simp only [decodePayload, readContent, write, hr]

/-- The only item of an array, with a frequency of either sign and a zero that has one. -/
theorem decodePayload_settings_array :
    let settings : Settings := { frequencies := { global := [251.0, -0.0], test := [-1.5] } }
    Topic.settings.Finite settings ∧
      decodePayload .settings (readContent .settings) (.array [settings.toJson]) = .ok settings := by
  intro settings
  have h : Topic.settings.Finite settings := by
    simp only [Topic.Finite, Frequencies.Finite, settings]
    decide
  exact ⟨h, decodePayload_envelope .settings h .array⟩

end Topic

end VoiceAdmin
