import Mathlib.Data.List.DropRight
import Mathlib.Logic.Function.Basic
import VoiceAdmin.Frequency.Draft
import VoiceAdmin.Proofs.Recording

namespace VoiceAdmin.Frequency

theorem validate_eq_ok {value accepted : Float} :
    validate value = .ok accepted ↔
      accepted = value ∧ value.isNaN = false ∧ ¬ value < least ∧ ¬ greatest < value := by
  unfold validate
  constructor
  · intro h
    split at h
    · cases h
    · rename_i hnan
      split at h
      · cases h
      · rename_i hlow
        split at h
        · cases h
        · rename_i hhigh
          exact ⟨(Except.ok.inj h).symm, Bool.eq_false_iff.mpr hnan, hlow, hhigh⟩
  · rintro ⟨rfl, hnan, hlow, hhigh⟩
    rw [if_neg (Bool.eq_false_iff.mp hnan), if_neg hlow, if_neg hhigh]

theorem list_setList (lists : Frequencies) (band : Band) (values : List Float) :
    (lists.setList band values).list = Function.update lists.list band values := by
  funext other
  cases band <;> cases other <;> rfl

namespace Draft

variable {draft : Draft} {submission : Submission} {band : Band} {index : Nat}

theorem add_valid {frequency : Float} (h : validate submission.frequency = .ok frequency) :
    draft.add submission = (.ok (), ⟨draft.lists.setList submission.band
      (draft.lists.list submission.band ++ [frequency]), true⟩) := by
  simp only [add, h]

theorem add_invalid {e : RangeError} (h : validate submission.frequency = .error e) :
    draft.add submission = (.error e, draft) := by
  simp only [add, h]

theorem remove_present {frequency : Float} (h : (draft.lists.list band)[index]? = some frequency) :
    draft.remove band index = (some frequency,
      ⟨draft.lists.setList band ((draft.lists.list band).eraseIdx index), true⟩) := by
  simp only [remove, h]

theorem remove_absent (h : (draft.lists.list band)[index]? = none) :
    draft.remove band index = (none, draft) := by
  simp only [remove, h]

/-- What is done with a draft. -/
inductive Action where
  | add (submission : Submission)
  | remove (band : Band) (index : Nat)
  | replace (lists : Frequencies)

inductive Answer where
  | added
  | rejected (error : RangeError)
  | removed (frequency : Float)
  | outOfRange
  | replaced

def act (draft : Draft) : Action → Answer × Draft
  | .add submission =>
    match draft.add submission with
    | (.ok _, next) => (.added, next)
    | (.error e, next) => (.rejected e, next)
  | .remove band index =>
    match draft.remove band index with
    | (some frequency, next) => (.removed frequency, next)
    | (none, next) => (.outOfRange, next)
  | .replace lists => (.replaced, ofFrequencies lists)

abbrev Log := List (Action × Answer)

/-- The draft of a snapshot after some actions, with what was done. -/
def run (initial : Frequencies) (actions : List Action) : Recorded Draft Action Answer :=
  Recorded.run act (ofFrequencies initial) actions

/-- A change to one of the lists. -/
inductive Edit where
  | append (band : Band) (frequency : Float)
  | erase (band : Band) (index : Nat)

/-- The lists after a change. The other list stays as it is, and so do the order and the values of the
other entries. -/
def Edit.on (lists : Band → List Float) : Edit → Band → List Float
  | .append band frequency => Function.update lists band (lists band ++ [frequency])
  | .erase band index =>
    Function.update lists band ((lists band).take index ++ (lists band).drop (index + 1))

namespace Log

def snapshot? : Action × Answer → Option Frequencies
  | (.replace lists, _) => some lists
  | _ => none

/-- The change that an entry made, if it succeeded. -/
def edit? : Action × Answer → Option Edit
  | (.add submission, .added) => some (.append submission.band submission.frequency)
  | (.remove band index, .removed _) => some (.erase band index)
  | _ => none

/-- The latest snapshot. -/
def snapshot (initial : Frequencies) (log : Log) : Frequencies :=
  (log.filterMap snapshot?).getLastD initial

/-- The changes that succeeded since the latest snapshot. -/
def edits (log : Log) : List Edit :=
  (log.rtakeWhile fun e => (snapshot? e).isNone).filterMap edit?

variable {log : Log} {e : Action × Answer}

theorem snapshot_append (initial : Frequencies) (log : Log) (e : Action × Answer) :
    snapshot initial (log ++ [e]) = (snapshot? e).getD (snapshot initial log) := by
  rw [snapshot, filterMap_concat]
  cases snapshot? e <;> simp [snapshot]

theorem edits_append_snapshot {lists : Frequencies} (h : snapshot? e = some lists) :
    edits (log ++ [e]) = [] := by
  rw [edits, List.rtakeWhile_concat_neg _ _ _ (by simp [h])]
  rfl

theorem edits_append (h : snapshot? e = none) :
    edits (log ++ [e]) = edits log ++ (edit? e).toList := by
  rw [edits, List.rtakeWhile_concat_pos _ _ _ (by simp [h]), filterMap_concat]
  rfl

end Log

theorem Edit.mem_on {edit : Edit} {lists : Band → List Float} {frequency : Float}
    (h : frequency ∈ edit.on lists band) : frequency ∈ lists band ∨ edit = .append band frequency := by
  cases edit with
  | append changed value =>
    by_cases hb : band = changed
    · subst hb
      rw [Edit.on, Function.update_self, List.mem_append, List.mem_singleton] at h
      rcases h with hm | rfl
      · exact .inl hm
      · exact .inr rfl
    · rw [Edit.on, Function.update_of_ne hb] at h
      exact .inl h
  | erase changed index =>
    by_cases hb : band = changed
    · subst hb
      rw [Edit.on, Function.update_self, List.mem_append] at h
      exact .inl (h.elim List.mem_of_mem_take List.mem_of_mem_drop)
    · rw [Edit.on, Function.update_of_ne hb] at h
      exact .inl h

/-- Whatever is on a list was there at first or was appended to it. -/
theorem mem_foldl_on {edits : List Edit} {lists : Band → List Float} {frequency : Float}
    (h : frequency ∈ edits.foldl Edit.on lists band) :
    frequency ∈ lists band ∨ .append band frequency ∈ edits := by
  induction edits generalizing lists with
  | nil => exact .inl h
  | cons edit later ih =>
    rcases ih h with hm | hm
    · rcases Edit.mem_on hm with hm | rfl
      · exact .inl hm
      · exact .inr List.mem_cons_self
    · exact .inr (.tail _ hm)

open Log

/-- What holds of a draft at any time. -/
structure Sound (initial : Frequencies) (r : Recorded Draft Action Answer) : Prop where
  lists : r.state.lists.list = (edits r.log).foldl Edit.on (snapshot initial r.log).list
  dirty : r.state.isDirty = true ↔ edits r.log ≠ []
  valid : ∀ band frequency, .append band frequency ∈ edits r.log → validate frequency = .ok frequency

variable {initial : Frequencies} {r : Recorded Draft Action Answer} {e : Action × Answer}

/-- An entry that is no change does not count. -/
theorem Sound.refused (h : Sound initial r) (hsnapshot : snapshot? e = none) (hedit : edit? e = none) :
    Sound initial ⟨r.state, r.log ++ [e]⟩ := by
  have hedits : edits (r.log ++ [e]) = edits r.log := by
    rw [edits_append hsnapshot, hedit, Option.toList_none, List.append_nil]
  have hlatest : snapshot initial (r.log ++ [e]) = snapshot initial r.log := by
    rw [snapshot_append, hsnapshot, Option.getD_none]
  constructor
  · simpa only [hedits, hlatest] using h.lists
  · simpa only [hedits] using h.dirty
  · simpa only [hedits] using h.valid

theorem Sound.edited (h : Sound initial r) {next : Frequencies} {edit : Edit}
    (hsnapshot : snapshot? e = none) (hedit : edit? e = some edit)
    (hlists : next.list = edit.on r.state.lists.list)
    (hvalid : ∀ band frequency, edit = .append band frequency → validate frequency = .ok frequency) :
    Sound initial ⟨⟨next, true⟩, r.log ++ [e]⟩ := by
  have hedits : edits (r.log ++ [e]) = edits r.log ++ [edit] := by
    rw [edits_append hsnapshot, hedit, Option.toList_some]
  have hlatest : snapshot initial (r.log ++ [e]) = snapshot initial r.log := by
    rw [snapshot_append, hsnapshot, Option.getD_none]
  constructor
  · simp only [hedits, hlatest, List.foldl_append, ← h.lists]
    exact hlists
  · simp [hedits]
  · simp only [hedits]
    intro band frequency hm
    rcases List.mem_append.mp hm with hm | hm
    · exact h.valid band frequency hm
    · exact hvalid band frequency (List.mem_singleton.mp hm).symm

theorem Sound.replaced {lists : Frequencies} (hsnapshot : snapshot? e = some lists) :
    Sound initial ⟨ofFrequencies lists, r.log ++ [e]⟩ := by
  have hlatest : snapshot initial (r.log ++ [e]) = lists := by
    rw [snapshot_append, hsnapshot, Option.getD_some]
  constructor
  · rw [edits_append_snapshot hsnapshot, hlatest]
    rfl
  · simp [edits_append_snapshot hsnapshot, ofFrequencies]
  · simp [edits_append_snapshot hsnapshot]

theorem Sound.record (h : Sound initial r) (action : Action) : Sound initial (r.record act action) := by
  cases action with
  | add submission =>
    cases hv : validate submission.frequency with
    | error e =>
      simp only [Recorded.record, act, add_invalid hv]
      exact h.refused rfl rfl
    | ok frequency =>
      obtain ⟨rfl, -⟩ := validate_eq_ok.mp hv
      simp only [Recorded.record, act, add_valid hv]
      refine h.edited rfl rfl (list_setList ..) ?_
      rintro _ _ ⟨⟩
      exact hv
  | remove band index =>
    cases hi : (r.state.lists.list band)[index]? with
    | none =>
      simp only [Recorded.record, act, remove_absent hi]
      exact h.refused rfl rfl
    | some frequency =>
      simp only [Recorded.record, act, remove_present hi]
      refine h.edited rfl rfl ?_ nofun
      rw [list_setList, List.eraseIdx_eq_take_drop_succ]
      rfl
  | replace lists => exact Sound.replaced rfl

theorem run_sound (initial : Frequencies) (actions : List Action) :
    Sound initial (run initial actions) := by
  refine Recorded.run_induction (motive := fun _ => Sound initial) ?_ (fun _ _ h => h.record) actions
  exact ⟨rfl, by simp [ofFrequencies, edits], nofun⟩

/-- A draft shows the latest snapshot with the changes that succeeded since, and is dirty if there is
one. An entry that is not from the snapshot is valid. What is added next is judged by the range alone and
what is removed next is what stands at its index; the rest is refused and changes nothing. -/
theorem run_shows_edits (initial : Frequencies) (actions : List Action) :
    let r := run initial actions
    r.state.lists.list = (edits r.log).foldl Edit.on (snapshot initial r.log).list ∧
    (r.state.isDirty = true ↔ edits r.log ≠ []) ∧
    (∀ band frequency, .append band frequency ∈ edits r.log → validate frequency = .ok frequency) ∧
    (∀ band, ∀ frequency ∈ r.state.lists.list band,
      frequency ∈ (snapshot initial r.log).list band ∨ validate frequency = .ok frequency) ∧
    (∀ submission, (∀ frequency, validate submission.frequency = .ok frequency →
        frequency = submission.frequency ∧ (r.state.act (.add submission)).1 = .added) ∧
      ∀ e, validate submission.frequency = .error e →
        r.state.act (.add submission) = (.rejected e, r.state)) ∧
    ∀ band index, (∀ frequency, (r.state.lists.list band)[index]? = some frequency →
        (r.state.act (.remove band index)).1 = .removed frequency) ∧
      ((r.state.lists.list band).length ≤ index →
        r.state.act (.remove band index) = (.outOfRange, r.state)) := by
  intro r
  have h : Sound initial r := run_sound initial actions
  refine ⟨h.lists, h.dirty, h.valid, fun band frequency hm => ?_, fun submission => ⟨?_, ?_⟩,
    fun band index => ⟨?_, ?_⟩⟩
  · rw [h.lists] at hm
    exact (mem_foldl_on hm).imp_right (h.valid band frequency)
  · intro frequency hv
    refine ⟨(validate_eq_ok.mp hv).1, ?_⟩
    simp only [act, add_valid hv]
  · intro e hv
    simp only [act, add_invalid hv]
  · intro frequency hi
    simp only [act, remove_present hi]
  · intro hi
    simp only [act, remove_absent (List.getElem?_eq_none hi)]

end Draft

end VoiceAdmin.Frequency
