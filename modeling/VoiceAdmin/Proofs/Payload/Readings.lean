import Mathlib.Data.List.Basic
import VoiceAdmin.Proofs.Payload.RoundTrip

namespace VoiceAdmin

namespace Schema

theorem bind_eq_ok {x : Except ε α} {f : α → Except ε β} {b : β} :
    x >>= f = .ok b ↔ ∃ a, x = .ok a ∧ f a = .ok b := by
  cases x <;> simp [bind, Except.bind]

/-- Something can be read there. -/
def Accepts (read : Reader α) (payload : Json) : Prop :=
  ∃ value, read payload = .ok value

theorem rejects_iff {read : Reader α} {payload : Json} : Rejects read payload ↔ ¬ Accepts read payload := by
  unfold Rejects Accepts
  cases read payload <;> simp

theorem mapM_accepts {f : α → Except ε β} {l : List α} {results : List β} (h : l.mapM f = .ok results) :
    ∀ a ∈ l, ∃ b, f a = .ok b := by
  induction l generalizing results with
  | nil => exact nofun
  | cons a rest ih =>
    rw [List.mapM_cons] at h
    obtain ⟨b, hb, h⟩ := bind_eq_ok.mp h
    obtain ⟨others, hrest, -⟩ := bind_eq_ok.mp h
    intro x hx
    rcases List.mem_cons.mp hx with rfl | hx
    · exact ⟨b, hb⟩
    · exact ih hrest x hx

theorem list_accepts {item : Reader α} {payload : Json} (h : Accepts (list item) payload) :
    ∃ items, payload = .array items ∧ ∀ i ∈ items, Accepts item i := by
  obtain ⟨values, h⟩ := h
  cases payload with
  | array items => exact ⟨items, rfl, mapM_accepts h⟩
  | _ => cases h

theorem entries_accepts {value : Reader α} {payload : Json} (h : Accepts (entries value) payload) :
    ∃ object, payload = .object object ∧ ∀ field ∈ object, Accepts value field.2 := by
  obtain ⟨results, h⟩ := h
  cases payload with
  | object object =>
    refine ⟨object, rfl, fun field hf => ?_⟩
    obtain ⟨result, hresult⟩ := mapM_accepts h field hf
    obtain ⟨v, hv, -⟩ := bind_eq_ok.mp hresult
    exact ⟨v, hv⟩
  | _ => cases h

theorem text_accepts {payload : Json} (h : Accepts text payload) : ∃ s, payload = .text s := by
  obtain ⟨value, h⟩ := h
  cases payload with
  | text s => exact ⟨s, rfl⟩
  | _ => cases h

namespace Fields

/-- To read the fields is to read one of them in particular, which stands first in an array. An array
gives one item to each field. -/
structure Leads (fields : Fields β) (key : String) (first : Reader α) : Prop where
  object : ∀ {object value}, fields.fromObject object = .ok value →
    ∃ written, object.lookup key = some written ∧ Accepts first written
  array : ∀ {items value rest}, fields.fromArray items = .ok (some (value, rest)) →
    ∃ written others, items = written :: others ∧ Accepts first written
  length : ∀ {items value rest}, fields.fromArray items = .ok (some (value, rest)) →
    items.length = fields.count + rest.length

theorem fromObject_field {before : Fields (α → β)} {key : String} {reader : Reader α}
    {object : List (String × Json)} {value : β}
    (h : (before.field key reader).fromObject object = .ok value) :
    ∃ make written, before.fromObject object = .ok make ∧ object.lookup key = some written ∧
      Accepts reader written := by
  obtain ⟨make, hmake, h⟩ := bind_eq_ok.mp h
  cases hl : object.lookup key with
  | none =>
    rw [hl] at h
    cases h
  | some written =>
    rw [hl] at h
    obtain ⟨v, hv, -⟩ := bind_eq_ok.mp h
    exact ⟨make, written, hmake, rfl, v, hv⟩

theorem fromArray_field {before : Fields (α → β)} {key : String} {reader : Reader α}
    {items rest : List Json} {value : β}
    (h : (before.field key reader).fromArray items = .ok (some (value, rest))) :
    ∃ make item, before.fromArray items = .ok (some (make, item :: rest)) ∧ Accepts reader item := by
  obtain ⟨taken, htaken, h⟩ := bind_eq_ok.mp h
  split at h
  · obtain ⟨v, hv, h⟩ := bind_eq_ok.mp h
    cases h
    exact ⟨_, _, htaken, v, hv⟩
  · cases h

theorem Leads.start (make : α → β) (key : String) (reader : Reader α) :
    ((Fields.start make).field key reader).Leads key reader where
  object hread := by
    obtain ⟨_, written, -, hl, ha⟩ := fromObject_field hread
    exact ⟨written, hl, ha⟩
  array hread := by
    obtain ⟨_, item, hstart, ha⟩ := fromArray_field hread
    cases hstart
    exact ⟨item, _, rfl, ha⟩
  length hread := by
    obtain ⟨_, item, hstart, -⟩ := fromArray_field hread
    cases hstart
    exact Nat.add_comm _ 1

theorem Leads.field {before : Fields (α → β)} {key : String} {first : Reader γ}
    (h : before.Leads key first) (other : String) (reader : Reader α) :
    (before.field other reader).Leads key first where
  object hread := by
    obtain ⟨_, _, hbefore, -, -⟩ := fromObject_field hread
    exact h.object hbefore
  array hread := by
    obtain ⟨_, _, hbefore, -⟩ := fromArray_field hread
    exact h.array hbefore
  length {items _ rest} hread := by
    obtain ⟨_, item, hbefore, -⟩ := fromArray_field hread
    have hlength := h.length hbefore
    rw [List.length_cons] at hlength
    change items.length = before.count + 1 + rest.length
    omega

end Fields

/-- Reads records of several fields, one of which stands under a key, or first in an array. Such a record
is no text and no object or array of an envelope's shape, since its fields are several and none is `data`;
and the first field of a client, a coalition or a ban is a text, which no record is. -/
def ReadsRecords (read : Reader β) (key : String) (first : Reader α) : Prop :=
  ∃ name fields, read = record name fields ∧ fields.Leads key first ∧ 1 < fields.count

namespace ReadsRecords

variable {read : Reader β} {key : String} {first : Reader α} {payload inner : Json}

theorem accepts (h : ReadsRecords read key first) (ha : Accepts read payload) :
    (∃ object written, payload = .object object ∧ object.lookup key = some written ∧
      Accepts first written) ∨
    ∃ written next others, payload = .array (written :: next :: others) ∧ Accepts first written := by
  obtain ⟨name, fields, rfl, hleads, hcount⟩ := h
  obtain ⟨value, hread⟩ := ha
  cases payload with
  | object object =>
    simp only [record, Fields.readObject] at hread
    split at hread
    · cases hread
    · obtain ⟨written, hl, hw⟩ := hleads.object hread
      exact .inl ⟨object, written, rfl, hl, hw⟩
  | array items =>
    obtain ⟨taken, htaken, hread⟩ := bind_eq_ok.mp hread
    split at hread
    · cases hread
    · obtain ⟨written, others, rfl, hw⟩ := hleads.array htaken
      have hlength := hleads.length htaken
      cases others with
      | nil =>
        simp only [List.length_cons, List.length_nil] at hlength
        omega
      | cons next others => exact .inr ⟨written, next, others, rfl, hw⟩
    · cases hread
  | _ => cases hread

theorem not_text (h : ReadsRecords read key first) (s : String) : ¬ Accepts read (.text s) := by
  intro ha
  rcases h.accepts ha with ⟨object, written, hp, -⟩ | ⟨written, next, others, hp, -⟩ <;> cases hp

/-- A field of another name is not in an object that has `data` alone. -/
theorem not_data (h : ReadsRecords read key first) (hk : key ≠ "data") :
    ¬ Accepts read (.object [("data", inner)]) := by
  intro ha
  rcases h.accepts ha with ⟨object, written, hp, hl, -⟩ | ⟨written, next, others, hp, -⟩
  · cases hp
    have hother : (key == "data") = false := by simpa using hk
    simp only [List.lookup_cons, hother, List.lookup_nil] at hl
    cases hl
  · cases hp

theorem not_single (h : ReadsRecords read key first) : ¬ Accepts read (.array [inner]) := by
  intro ha
  rcases h.accepts ha with ⟨object, written, hp, -⟩ | ⟨written, next, others, hp, -⟩ <;> cases hp

/-- A record is no list of such records: as an array, it begins with a text. -/
theorem not_list (h : ReadsRecords read key text) (ha : Accepts read payload) :
    ¬ Accepts (list read) payload := by
  intro hlist
  obtain ⟨items, rfl, hall⟩ := list_accepts hlist
  rcases h.accepts ha with ⟨object, written, hp, -⟩ | ⟨written, next, others, hp, hw⟩
  · cases hp
  · cases hp
    obtain ⟨s, rfl⟩ := text_accepts hw
    exact h.not_text s (hall _ List.mem_cons_self)

/-- A record does not hold such records only: one of its fields is a text. -/
theorem not_entries (h : ReadsRecords read key text) (ha : Accepts read payload) :
    ¬ Accepts (entries read) payload := by
  intro hentries
  obtain ⟨object, rfl, hall⟩ := entries_accepts hentries
  rcases h.accepts ha with ⟨object, written, hp, hl, hw⟩ | ⟨written, next, others, hp, -⟩
  · cases hp
    obtain ⟨s, rfl⟩ := text_accepts hw
    obtain ⟨before, after, rfl, -⟩ := List.lookup_eq_some_iff.mp hl
    exact h.not_text s (hall (key, .text s) (by simp))
  · cases hp

/-- An array of one is a list of records exactly if what it holds is a record, and then that is no list
itself. -/
theorem list_exclusive (h : ReadsRecords read key text) (hc : Envelope.content? payload = some inner)
    (ha : Accepts (list read) payload) : ¬ Accepts (list read) inner := by
  obtain ⟨items, rfl, hall⟩ := list_accepts ha
  unfold Envelope.content? at hc
  split at hc
  · contradiction
  · rename_i hitems
    cases hitems
    cases hc
    exact h.not_list (hall _ List.mem_cons_self)
  · cases hc

/-- No envelope is a record. -/
theorem envelope_exclusive (h : ReadsRecords read key first) (hk : key ≠ "data")
    (hc : Envelope.content? payload = some inner) : ¬ Accepts read payload := by
  unfold Envelope.content? at hc
  split at hc
  · exact h.not_data hk
  · exact h.not_single
  · cases hc

end ReadsRecords

end Schema

open Schema

theorem Status.readsRecords : ReadsRecords Status.read "http" Component.read :=
  ⟨_, _, rfl, ((Fields.Leads.start _ _ _).field _ _).field _ _, by decide⟩

theorem Settings.readsRecords : ReadsRecords Settings.read "servers" Endpoints.read :=
  ⟨_, _, rfl, (Fields.Leads.start _ _ _).field _ _, by decide⟩

theorem Client.readsRecords : ReadsRecords Client.read "Name" text :=
  ⟨_, _, rfl, (((Fields.Leads.start _ _ _).field _ _).field _ _).field _ _, by decide⟩

theorem Coalition.readsRecords : ReadsRecords Coalition.read "name" text :=
  ⟨_, _, rfl, (((Fields.Leads.start _ _ _).field _ _).field _ _).field _ _, by decide⟩

theorem Ban.readsRecords : ReadsRecords Ban.read "id" text :=
  ⟨_, _, rfl, (((Fields.Leads.start _ _ _).field _ _).field _ _).field _ _, by decide⟩

theorem Notification.readsRecords : ReadsRecords Notification.read "id" text :=
  ⟨_, _, rfl, (((Fields.Leads.start _ _ _).field _ _).field _ _).field _ _, by decide⟩

theorem Roster.accepts_entries {payload : Json} (h : Accepts Roster.read payload) :
    Accepts (Schema.entries Client.read) payload := by
  obtain ⟨roster, h⟩ := h
  obtain ⟨fields, hfields, -⟩ := bind_eq_ok.mp h
  exact ⟨fields, hfields⟩

/-- A roster may hold one client alone, with the id `data`; but that client is no roster. -/
theorem Roster.read_exclusive {payload inner : Json} (hc : Envelope.content? payload = some inner)
    (ha : Accepts Roster.read payload) : ¬ Accepts Roster.read inner := by
  intro hinner
  obtain ⟨object, rfl, hall⟩ := entries_accepts (Roster.accepts_entries ha)
  unfold Envelope.content? at hc
  split at hc
  · rename_i hobject
    cases hobject
    cases hc
    exact Client.readsRecords.not_entries (hall _ List.mem_cons_self) (Roster.accepts_entries hinner)
  · contradiction
  · cases hc

namespace Envelope

/-- What a payload may stand for: itself, and what it holds if it has an envelope's shape. -/
def readings (payload : Json) : List Json := payload :: (content? payload).toList

end Envelope

namespace Topic

variable {t : Topic} {payload inner : Json}

theorem readContent_exclusive (hc : Envelope.content? payload = some inner)
    (ha : Accepts t.readContent payload) : ¬ Accepts t.readContent inner := by
  cases t with
  | status => exact absurd ha (Status.readsRecords.envelope_exclusive (by decide) hc)
  | settings => exact absurd ha (Settings.readsRecords.envelope_exclusive (by decide) hc)
  | roster => exact Roster.read_exclusive hc ha
  | coalitions => exact Coalition.readsRecords.list_exclusive hc ha
  | bans => exact Ban.readsRecords.list_exclusive hc ha
  | notification => exact absurd ha (Notification.readsRecords.envelope_exclusive (by decide) hc)

/-- The contents that can be read from a payload, in whatever way. -/
def contents (t : Topic) (payload : Json) : List t.Content :=
  (Envelope.readings payload).filterMap fun reading => (t.readContent reading).toOption

theorem decodePayload_topic {fault : MalformedPayload}
    (h : decodePayload t t.readContent payload = .error fault) : fault = ⟨t, fault.fault⟩ := by
  unfold decodePayload at h
  split at h <;> cases h
  rfl

/-- What can be read at all is what the payload is decoded to. -/
theorem contents_eq (t : Topic) (payload : Json) :
    t.contents payload = (decodePayload t t.readContent payload).toOption.toList := by
  unfold contents Envelope.readings decodePayload
  cases hp : t.readContent payload with
  | ok value =>
    have hinner : ∀ inner ∈ (Envelope.content? payload).toList,
        (t.readContent inner).toOption = none := by
      intro inner hm
      have hno := readContent_exclusive (Option.mem_toList.mp hm) ⟨value, hp⟩
      obtain ⟨fault, hf⟩ := rejects_iff.mpr hno
      rw [hf]
      rfl
    rw [readPayload_ok hp, List.filterMap_cons, hp, List.filterMap_eq_nil_iff.mpr hinner]
    rfl
  | error fault =>
    rw [List.filterMap_cons, hp]
    cases hc : Envelope.content? payload with
    | none =>
      simp only [readPayload, hp, hc]
      rfl
    | some inner =>
      rw [readPayload_content ⟨fault, hp⟩ hc]
      cases hi : t.readContent inner <;> simp [hi, Except.toOption]

/-- A payload is read in one way at most. That is what it is decoded to, in whatever order its readings
are tried, and it is malformed if there is none. -/
theorem decodePayload_unambiguous (t : Topic) (payload : Json) :
    (∀ inner, Envelope.content? payload = some inner →
      ¬ (Accepts t.readContent payload ∧ Accepts t.readContent inner)) ∧
    (∀ value, decodePayload t t.readContent payload = .ok value ↔ t.contents payload = [value]) ∧
    ((∃ fault, decodePayload t t.readContent payload = .error ⟨t, fault⟩) ↔
      ∀ value, t.contents payload ≠ [value]) ∧
    ∀ order : List Json, order.Perm (Envelope.readings payload) →
      order.findSome? (fun reading => (t.readContent reading).toOption) =
        (decodePayload t t.readContent payload).toOption := by
  have hcontents := t.contents_eq payload
  refine ⟨fun inner hc ⟨hp, hi⟩ => readContent_exclusive hc hp hi, ?_, ?_, fun order horder => ?_⟩
  · intro value
    rw [hcontents]
    cases decodePayload t t.readContent payload <;> simp [Except.toOption]
  · rw [hcontents]
    cases hd : decodePayload t t.readContent payload with
    | ok value => simp [Except.toOption]
    | error fault =>
      rw [decodePayload_topic hd]
      simp [Except.toOption]
  · have hperm := horder.filterMap fun reading => (t.readContent reading).toOption
    change List.Perm _ (t.contents payload) at hperm
    rw [hcontents] at hperm
    rw [← List.head?_filterMap]
    cases hd : (decodePayload t t.readContent payload).toOption with
    | none =>
      rw [hd] at hperm
      rw [List.perm_nil.mp hperm]
      rfl
    | some value =>
      rw [hd] at hperm
      rw [List.perm_singleton.mp hperm]
      rfl

end Topic

end VoiceAdmin
