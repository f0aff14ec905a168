import VoiceAdmin.Domain.Kind
import VoiceAdmin.Domain.Notification
import VoiceAdmin.Proofs.Keyed

namespace VoiceAdmin

namespace Schema

theorem mapM_map_ok {item : Reader α} {write : α → Json} (values : List α)
    (h : ∀ v ∈ values, item (write v) = .ok v) : (values.map write).mapM item = .ok values := by
  induction values with
  | nil => rfl
  | cons v rest ih =>
    have hv := h v (by simp)
    have hr := ih fun w hw => h w (by simp [hw])
    simp only [List.map_cons, List.mapM_cons, hv, hr]
    rfl

theorem list_map_ok {item : Reader α} {write : α → Json} (values : List α)
    (h : ∀ v ∈ values, item (write v) = .ok v) :
    list item (.array (values.map write)) = .ok values :=
  mapM_map_ok values h

theorem entries_map_ok {value : Reader α} {write : α → Json} (fields : List (String × α))
    (h : ∀ v, value (write v) = .ok v) :
    entries value (.object (fields.map fun (key, v) => (key, write v))) = .ok fields := by
  induction fields with
  | nil => rfl
  | cons head rest ih =>
    obtain ⟨key, v⟩ := head
    simp only [entries] at ih
    simp only [entries, List.map_cons, List.mapM_cons, h v, ih]
    rfl

/-- An object in which every field of a record is found and can be read. -/
structure Fields.Reads (fields : Fields α) (object : List (String × Json)) (value : α) : Prop where
  faultless : fields.faults object = []
  read : fields.fromObject object = .ok value

namespace Fields

theorem Reads.start (object : List (String × Json)) (make : α) :
    (Fields.start make).Reads object make :=
  ⟨rfl, rfl⟩

theorem Reads.field {before : Fields (α → β)} {object : List (String × Json)} {make : α → β}
    (h : before.Reads object make) {key : String} {reader : Reader α} {written : Json} {value : α}
    (hk : object.lookup key = some written) (hv : reader written = .ok value) :
    (before.field key reader).Reads object (make value) := by
  constructor
  · simp [Fields.field, h.faultless, hk, hv]
  · simp only [Fields.field, h.read, hk, hv]
    rfl

end Fields

theorem record_object {fields : Fields α} {object : List (String × Json)} {value : α}
    (h : fields.Reads object value) (name : String) :
    record name fields (.object object) = .ok value := by
  simp only [record, Fields.readObject, h.faultless, h.read]
  rfl

theorem port_integer (n : UInt16) : port (.integer n.toNat) = .ok n := by
  have h : (0 : Int) ≤ n.toNat ∧ (n.toNat : Int) < 65536 := by
    have := n.toNat_lt
    omega
  simp only [port, if_pos h, Int.toNat_natCast, UInt16.ofNat_toNat]

theorem number_ofFloat {x : Float} (h : x.isFinite = true) : number (.ofFloat x) = .ok x := by
  simp only [Json.ofFloat, h, if_true, number]

end Schema

theorem Status.read_toJson (s : Status) : Status.read s.toJson = .ok s := rfl

theorem Coalition.read_toJson (c : Coalition) : Coalition.read c.toJson = .ok c := rfl

theorem Ban.read_toJson (b : Ban) : Ban.read b.toJson = .ok b := rfl

theorem Client.read_toJson (c : Client) : Client.read c.toJson = .ok c := rfl

theorem Level.read_name (l : Level) : Level.read (.text l.name) = .ok l := by
  cases l <;> rfl

theorem Notification.read_toJson (n : Notification) : Notification.read n.toJson = .ok n :=
  Schema.record_object (((((Schema.Fields.Reads.start _ Notification.mk).field rfl rfl).field rfl
    rfl).field rfl rfl).field rfl n.level.read_name) _

theorem Endpoint.read_toJson (e : Endpoint) : Endpoint.read e.toJson = .ok e :=
  Schema.record_object (((Schema.Fields.Reads.start _ Endpoint.mk).field rfl rfl).field rfl
    (Schema.port_integer e.port)) _

theorem Endpoints.read_toJson (e : Endpoints) : Endpoints.read e.toJson = .ok e :=
  Schema.record_object ((((Schema.Fields.Reads.start _ Endpoints.mk).field rfl
    e.http.read_toJson).field rfl e.voice.read_toJson).field rfl e.control.read_toJson) _

/-- Every frequency on both lists is a finite number. -/
def Frequencies.Finite (f : Frequencies) : Prop :=
  ∀ x ∈ f.global ++ f.test, x.isFinite = true

theorem Frequencies.read_toJson {f : Frequencies} (h : f.Finite) :
    Frequencies.read f.toJson = .ok f := by
  have hg := Schema.list_map_ok f.global fun x hx =>
    Schema.number_ofFloat (h x (List.mem_append_left _ hx))
  have ht := Schema.list_map_ok f.test fun x hx =>
    Schema.number_ofFloat (h x (List.mem_append_right _ hx))
  exact Schema.record_object
    (((Schema.Fields.Reads.start _ Frequencies.mk).field rfl hg).field rfl ht) _

theorem Settings.read_toJson {s : Settings} (h : s.frequencies.Finite) :
    Settings.read s.toJson = .ok s :=
  Schema.record_object (((Schema.Fields.Reads.start _ Settings.mk).field rfl
    s.servers.read_toJson).field rfl (Frequencies.read_toJson h)) _

theorem Roster.read_toJson (r : Roster) : Roster.read r.toJson = .ok r := by
  have h := Schema.entries_map_ok r.entries Client.read_toJson
  simp only [Roster.read, Roster.toJson, h]
  exact congrArg Except.ok (Keyed.ofEntries_perm (.refl r.entries))

namespace Domain

/-- A value that holds no number but finite ones. -/
def Finite : (d : Domain) → d.Value → Prop
  | .settings, value => Frequencies.Finite (Settings.frequencies value)
  | _, _ => True

theorem read_toJson (d : Domain) {value : d.Value} (h : d.Finite value) :
    d.read (d.toJson value) = .ok value := by
  cases d with
  | status => exact Status.read_toJson value
  | settings => exact Settings.read_toJson h
  | roster => exact Roster.read_toJson value
  | coalitions => exact Schema.list_map_ok value fun c _ => c.read_toJson
  | bans => exact Schema.list_map_ok value fun b _ => b.read_toJson

end Domain

end VoiceAdmin
