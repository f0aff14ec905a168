import Mathlib.Data.List.DropRight
import VoiceAdmin.Request

namespace VoiceAdmin

namespace Text

theorem trim_toList (s : String) :
    (trim s).toList = (s.toList.dropWhile isBlankChar).rdropWhile isBlankChar :=
  String.toList_ofList

theorem isBlank_head (s : String) {c : Char} (h : (s.toList.dropWhile isBlankChar).head? = some c) :
    isBlankChar c = false := by
  have hhead := List.head?_dropWhile_not isBlankChar s.toList
  rw [h] at hhead
  exact hhead

theorem isBlank_iff {s : String} : isBlank s = true ↔ trim s = "" := by
  rw [← String.toList_eq_nil_iff, trim_toList, List.rdropWhile_eq_nil_iff, isBlank, List.all_eq_true]
  constructor
  · exact fun h c hc => h c (List.dropWhile_subset _ hc)
  · intro h
    cases hrest : s.toList.dropWhile isBlankChar with
    | nil => exact List.dropWhile_eq_nil_iff.mp hrest
    | cons c rest =>
      have hfirst := isBlank_head s (c := c) (by rw [hrest]; rfl)
      rw [h c (hrest ▸ List.mem_cons_self)] at hfirst
      cases hfirst

/-- Neither the first character nor the last is white space. -/
def Trimmed (s : String) : Prop :=
  (∀ c, s.toList.head? = some c → isBlankChar c = false) ∧
    ∀ c, s.toList.getLast? = some c → isBlankChar c = false

theorem trimmed_trim (s : String) : Trimmed (trim s) := by
  rw [Trimmed, trim_toList]
  constructor
  · intro c hc
    obtain ⟨rest, hrest⟩ := List.rdropWhile_prefix isBlankChar (s.toList.dropWhile isBlankChar)
    refine isBlank_head s ?_
    rw [← hrest, List.head?_append, hc]
    rfl
  · intro c hc
    have hne : (s.toList.dropWhile isBlankChar).rdropWhile isBlankChar ≠ [] := by
      intro hnil
      rw [hnil] at hc
      cases hc
    rw [List.getLast?_eq_some_getLast hne] at hc
    cases hc
    exact Bool.eq_false_iff.mpr (List.rdropWhile_last_not _ _ hne)

end Text

theorem Refusal.notice_level (refusal : Refusal) : refusal.notice.level = .error := by
  cases refusal <;> rfl

namespace Request

/-- The client, or the ban, that a request is about. -/
def client? : Request → Option String
  | .kick client _ | .ban client _ | .unban client | .mute client | .unmute client => some client
  | _ => none

def reason? : Request → Option String
  | .kick _ reason | .ban _ reason => some reason
  | _ => none

def coalition? : Request → Option Coalition
  | .addCoalition coalition | .updateCoalition coalition => some coalition
  | _ => none

/-- The command that is asked for: every field as it was given, but for white space around a reason. -/
def wish : Request → Command
  | .startServer => .startServer
  | .stopServer => .stopServer
  | .toggleServer status => if status.anyRunning then .stopServer else .startServer
  | .kick client reason => .kick client (Text.trim reason)
  | .ban client reason => .ban client (Text.trim reason)
  | .unban id => .unban id
  | .mute client => .mute client
  | .unmute client => .unmute client
  | .addCoalition coalition => .addCoalition coalition
  | .updateCoalition coalition => .updateCoalition coalition
  | .removeCoalition coalition => .removeCoalition coalition
  | .saveSettings servers => .saveSettings servers
  | .saveFrequencies frequencies => .saveFrequencies frequencies
  | .notify notification => .notify notification
  | .dispatch command => command

/-- Why a request is refused. The client is looked at before the reason, and the fields of a coalition in
their order. -/
inductive Refused (request : Request) : Refusal → Prop where
  | client {client : String} (about : request.client? = some client)
      (blank : Text.trim client = "") : Refused request .noClient
  | reason {client reason : String} (about : request.client? = some client)
      (named : Text.trim client ≠ "") (given : request.reason? = some reason)
      (blank : Text.trim reason = "") : Refused request .noReason
  | field {coalition : Coalition} {before after : List (String × String)} {label value : String}
      (given : request.coalition? = some coalition)
      (fields : coalition.labelled = before ++ (label, value) :: after)
      (filled : ∀ field ∈ before, Text.trim field.2 ≠ "") (blank : Text.trim value = "") :
      Refused request (.invalidCoalition ⟨label⟩)

/-- A check of something that a request may not have. -/
def ifGiven (value : Option α) (check : α → Except Refusal Unit) : Except Refusal Unit :=
  value.elim (.ok ()) check

/-- Every request passes the same three checks: of the client it names, of its reason, of its coalition.
-/
theorem command_eq (request : Request) :
    request.command = do
      ifGiven request.client? requireClient
      ifGiven request.reason? requireReason
      ifGiven request.coalition? requireValid
      return request.wish := by
  cases request <;> rfl

theorem requireClient_blank {client : String} (h : Text.trim client = "") :
    requireClient client = .error .noClient :=
  if_pos (Text.isBlank_iff.mpr h)

theorem requireClient_named {client : String} (h : Text.trim client ≠ "") :
    requireClient client = .ok () :=
  if_neg fun hblank => h (Text.isBlank_iff.mp hblank)

theorem requireReason_blank {reason : String} (h : Text.trim reason = "") :
    requireReason reason = .error .noReason :=
  if_pos (Text.isBlank_iff.mpr h)

theorem requireReason_given {reason : String} (h : Text.trim reason ≠ "") :
    requireReason reason = .ok () :=
  if_neg fun hblank => h (Text.isBlank_iff.mp hblank)

theorem requireValid_missing {coalition : Coalition} {before after : List (String × String)}
    {label value : String} (fields : coalition.labelled = before ++ (label, value) :: after)
    (filled : ∀ field ∈ before, Text.trim field.2 ≠ "") (blank : Text.trim value = "") :
    requireValid coalition = .error (.invalidCoalition ⟨label⟩) := by
  have hfind : (coalition.labelled.find? fun field => Text.isBlank field.2) = some (label, value) := by
    refine List.find?_eq_some_iff_append.mpr ⟨Text.isBlank_iff.mpr blank, before, after, fields, ?_⟩
    intro field hfield
    rw [Bool.not_eq_true']
    exact Bool.eq_false_iff.mpr fun hblank => filled field hfield (Text.isBlank_iff.mp hblank)
  rw [requireValid, Coalition.validate, hfind]
  rfl

theorem requireValid_filled {coalition : Coalition}
    (filled : ∀ field ∈ coalition.labelled, Text.trim field.2 ≠ "") :
    requireValid coalition = .ok () := by
  have hfind : (coalition.labelled.find? fun field => Text.isBlank field.2) = none :=
    List.find?_eq_none.mpr fun field hfield hblank => filled field hfield (Text.isBlank_iff.mp hblank)
  rw [requireValid, Coalition.validate, hfind]
  rfl

/-- The first empty field of a coalition that has one. -/
theorem first_missing {coalition : Coalition} {missing : String × String}
    (h : missing ∈ coalition.labelled) (blank : Text.trim missing.2 = "") :
    ∃ before label value after, coalition.labelled = before ++ (label, value) :: after ∧
      (∀ field ∈ before, Text.trim field.2 ≠ "") ∧ Text.trim value = "" := by
  cases hfind : coalition.labelled.find? fun field => Text.isBlank field.2 with
  | none => exact absurd (Text.isBlank_iff.mpr blank) (List.find?_eq_none.mp hfind missing h)
  | some first =>
    obtain ⟨hfirst, before, after, fields, hbefore⟩ := List.find?_eq_some_iff_append.mp hfind
    refine ⟨before, first.1, first.2, after, fields, fun field hfield hblank => ?_,
      Text.isBlank_iff.mp hfirst⟩
    have hfilled := hbefore field hfield
    rw [Text.isBlank_iff.mpr hblank] at hfilled
    cases hfilled

theorem reason?_about {request : Request} {reason : String} (h : request.reason? = some reason) :
    ∃ client, request.client? = some client := by
  cases request with
  | kick client _ => exact ⟨client, rfl⟩
  | ban client _ => exact ⟨client, rfl⟩
  | _ => cases h

theorem coalition?_alone {request : Request} {coalition : Coalition}
    (h : request.coalition? = some coalition) :
    request.client? = none ∧ request.reason? = none := by
  cases request with
  | addCoalition | updateCoalition => exact ⟨rfl, rfl⟩
  | _ => cases h

variable {request : Request}

theorem Refused.command {refusal : Refusal} (h : request.Refused refusal) :
    request.command = .error refusal := by
  rw [command_eq]
  cases h with
  | client about blank =>
    rw [about, ifGiven, Option.elim_some, requireClient_blank blank]
    rfl
  | reason about named given blank =>
    rw [about, ifGiven, Option.elim_some, requireClient_named named, given, ifGiven,
      Option.elim_some, requireReason_blank blank]
    rfl
  | field given fields filled blank =>
    obtain ⟨hclient, hreason⟩ := coalition?_alone given
    rw [hclient, hreason, given, ifGiven, ifGiven, ifGiven, Option.elim_some,
      requireValid_missing fields filled blank]
    rfl

/-- What a request holds that is not refused. -/
theorem allowed (h : ∀ refusal, ¬ request.Refused refusal) :
    (∀ client, request.client? = some client → Text.trim client ≠ "") ∧
    (∀ reason, request.reason? = some reason → Text.trim reason ≠ "") ∧
    ∀ coalition, request.coalition? = some coalition →
      ∀ field ∈ coalition.labelled, Text.trim field.2 ≠ "" := by
  have hclient : ∀ client, request.client? = some client → Text.trim client ≠ "" :=
    fun client about blank => h _ (.client about blank)
  refine ⟨hclient, fun reason given blank => ?_, fun coalition given field hfield blank => ?_⟩
  · obtain ⟨client, about⟩ := reason?_about given
    exact h _ (.reason about (hclient client about) given blank)
  · obtain ⟨before, label, value, after, fields, filled, hblank⟩ := first_missing hfield blank
    exact h _ (.field given fields filled hblank)

theorem command_allowed (h : ∀ refusal, ¬ request.Refused refusal) :
    request.command = .ok request.wish := by
  obtain ⟨hclient, hreason, hcoalition⟩ := allowed h
  have hfirst : ifGiven request.client? requireClient = .ok () := by
    cases about : request.client? with
    | none => rfl
    | some client => exact requireClient_named (hclient client about)
  have hsecond : ifGiven request.reason? requireReason = .ok () := by
    cases given : request.reason? with
    | none => rfl
    | some reason => exact requireReason_given (hreason reason given)
  have hthird : ifGiven request.coalition? requireValid = .ok () := by
    cases given : request.coalition? with
    | none => rfl
    | some coalition => exact requireValid_filled (hcoalition coalition given)
  rw [command_eq, hfirst, hsecond, hthird]
  rfl

end Request

/-- A command that names whom it is for, gives a reason where one is due, and leaves no field of a
coalition empty. -/
def Command.Sound : Command → Prop
  | .kick client reason | .ban client reason =>
    Text.trim client ≠ "" ∧ reason ≠ "" ∧ Text.Trimmed reason
  | .unban client | .mute client | .unmute client => Text.trim client ≠ ""
  | .addCoalition coalition | .updateCoalition coalition =>
    ∀ field ∈ coalition.labelled, Text.trim field.2 ≠ ""
  | _ => True

/-- Only a command that was handed over as it is may be unsound. -/
theorem Request.wish_sound {request : Request} (h : ∀ refusal, ¬ request.Refused refusal)
    (hraw : ∀ command, request ≠ .dispatch command) : request.wish.Sound := by
  obtain ⟨hclient, hreason, hcoalition⟩ := allowed h
  cases request with
  | dispatch command => exact absurd rfl (hraw command)
  | kick client reason => exact ⟨hclient _ rfl, hreason _ rfl, Text.trimmed_trim reason⟩
  | ban client reason => exact ⟨hclient _ rfl, hreason _ rfl, Text.trimmed_trim reason⟩
  | unban client | mute client | unmute client => exact hclient _ rfl
  | addCoalition coalition | updateCoalition coalition => exact hcoalition _ rfl
  | toggleServer status =>
    rw [wish]
    split <;> trivial
  | _ => trivial

end VoiceAdmin
