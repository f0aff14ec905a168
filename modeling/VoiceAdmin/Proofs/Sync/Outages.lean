import VoiceAdmin.Proofs.Recording
import VoiceAdmin.Proofs.Sync.Acceptance

namespace VoiceAdmin.Sync

open Delivery

variable {d : Domain} {α : Type}

/-- What a pull tells about the remote side. Pulls that break off or are cancelled tell nothing, and
neither do pushes. -/
inductive Verdict where
  | succeeded
  | failed (error : RemoteError)
deriving DecidableEq, Repr

namespace Verdict

def isFailure : Verdict → Bool
  | .succeeded => false
  | .failed _ => true

def error? : Verdict → Option RemoteError
  | .succeeded => none
  | .failed error => some error

end Verdict

/-- Whether an outage is under way after some verdicts, given whether one was before them. -/
def isDown (before : Bool) (verdicts : List Verdict) : Bool :=
  (verdicts.getLast?.map Verdict.isFailure).getD before

/-- The maximal runs of failures: the errors between one success and the next, where there are any. -/
def outages (verdicts : List Verdict) : List (List RemoteError) :=
  ((verdicts.splitOnP fun v => !v.isFailure).map (·.filterMap Verdict.error?)).filter (· ≠ [])

/-- The errors with which outages begin. One may be under way. -/
def onsets (underWay : Bool) : List Verdict → List RemoteError
  | [] => []
  | .succeeded :: rest => onsets false rest
  | .failed error :: rest => if underWay then onsets true rest else error :: onsets true rest

theorem isDown_cons (before : Bool) (first : Verdict) (rest : List Verdict) :
    isDown before (first :: rest) = isDown first.isFailure rest := by
  unfold isDown
  rw [List.getLast?_cons]
  cases rest.getLast? <;> rfl

theorem isDown_append (before : Bool) (verdicts more : List Verdict) :
    isDown before (verdicts ++ more) = isDown (isDown before verdicts) more := by
  induction verdicts generalizing before with
  | nil => rfl
  | cons first rest ih => rw [List.cons_append, isDown_cons, isDown_cons, ih]

theorem onsets_append (underWay : Bool) (verdicts more : List Verdict) :
    onsets underWay (verdicts ++ more) =
      onsets underWay verdicts ++ onsets (isDown underWay verdicts) more := by
  induction verdicts generalizing underWay with
  | nil => rfl
  | cons first rest ih =>
    rw [isDown_cons, List.cons_append]
    cases first with
    | succeeded => exact ih false
    | failed error =>
      cases underWay with
      | true => exact ih true
      | false => exact congrArg (error :: ·) (ih true)

/-- The heads of the runs; without the first run, where that one is under way. -/
theorem filterMap_splitOnP (verdicts : List Verdict) (underWay : Bool) :
    ((verdicts.splitOnP fun v => !v.isFailure).drop underWay.toNat).filterMap
        (fun run => (run.filterMap Verdict.error?).head?) =
      onsets underWay verdicts := by
  induction verdicts generalizing underWay with
  | nil => cases underWay <;> rfl
  | cons first rest ih =>
    rw [List.splitOnP_cons_eq_if_modifyHead]
    obtain ⟨run, runs, hruns⟩ := List.exists_cons_of_ne_nil
      (List.splitOnP_ne_nil (fun v : Verdict => !v.isFailure) rest)
    have hwhole := ih false
    have hrest := ih true
    rw [hruns] at hwhole hrest ⊢
    cases first with
    | succeeded => cases underWay <;> exact hwhole
    | failed error =>
      cases underWay with
      | true => exact hrest
      | false => exact congrArg (error :: ·) hrest

/-- Outages begin where an alert is due. -/
theorem heads_outages (verdicts : List Verdict) :
    (outages verdicts).filterMap List.head? = onsets false verdicts := by
  have hempty : ∀ runs : List (List RemoteError),
      (runs.filter (· ≠ [])).filterMap List.head? = runs.filterMap List.head? := by
    intro runs
    rw [List.filterMap_filter]
    refine List.filterMap_congr fun run _ => ?_
    cases run <;> rfl
  rw [outages, hempty, List.filterMap_map]
  exact filterMap_splitOnP verdicts false

example (a b c : RemoteError) :
    let verdicts := [.failed a, .failed b, .succeeded, .succeeded, .failed c, .succeeded]
    outages verdicts = [[a, b], [c]] ∧ onsets false verdicts = [a, c] :=
  ⟨rfl, rfl⟩

/-- An outage has a first failure. -/
theorem length_outages (verdicts : List Verdict) :
    (outages verdicts).length = (onsets false verdicts).length := by
  rw [← heads_outages, List.length_filterMap_eq_countP, List.countP_eq_length.mpr]
  intro run hrun
  have hsome : run ≠ [] := by simpa using List.of_mem_filter hrun
  obtain ⟨error, more, rfl⟩ := List.exists_cons_of_ne_nil hsome
  rfl

/-- The alert about a domain that cannot be fetched. -/
def unfetched (d : Domain) (error : RemoteError) : Notice :=
  ⟨"Failed to fetch " ++ d.name, error.message, .error⟩

/-- The alert about a push that cannot be read. -/
def unread (d : Domain) (fault : MalformedPayload) : Notice :=
  ⟨"Ignored malformed " ++ d.name ++ " update", fault.message, .warning⟩

/-- The alerts among some effects. -/
def raised (effects : List Effect) : List Notice :=
  effects.filterMap fun
    | .raise notice => some notice
    | _ => none

theorem raised_append (first second : List Effect) :
    raised (first ++ second) = raised first ++ raised second :=
  List.filterMap_append

namespace Input

def verdict : Input d → Option Verdict
  | .pulled (.fetched _ _) => some .succeeded
  | .pulled (.failed _ error) => some (.failed error)
  | _ => none

/-- What is wrong with a push that cannot be read. -/
def fault? : Input d → Option MalformedPayload
  | .push payload =>
    match decodePayload d.topic d.read payload with
    | .ok _ => none
    | .error fault => some fault
  | _ => none

/-- The alerts that an input calls for, given whether an outage is under way. -/
def alerts (underWay : Bool) : Input d → List Notice
  | .pulled (.failed _ error) => if underWay then [] else [unfetched d error]
  | .push payload =>
    match decodePayload d.topic d.read payload with
    | .ok _ => []
    | .error fault => [unread d fault]
  | _ => []

end Input

namespace Session

theorem update_raised (s : Session d) (offered : Cache d.Value × Applied) :
    raised (s.update offered).2 = [] := by
  rcases offered with ⟨cache, _ | _ | _⟩ <;> rfl

theorem update_failing (s : Session d) (offered : Cache d.Value × Applied) :
    (s.update offered).1.failing = s.failing := by
  rcases offered with ⟨cache, _ | _ | _⟩ <;> rfl

theorem requestPull_raised (s : Session d) : raised s.requestPull.2 = [] := by
  unfold requestPull
  split <;> rfl

theorem requestPull_failing (s : Session d) : s.requestPull.1.failing = s.failing := by
  unfold requestPull
  split <;> rfl

theorem handle_raised (s : Session d) (input : Input d) :
    raised (s.handle input).2 = input.alerts s.failing := by
  cases input with
  | push payload =>
    cases hd : decodePayload d.topic d.read payload with
    | ok value => simp only [handlePush_ok hd, update_raised, Input.alerts, hd]
    | error fault => simp only [handle, handlePush, Input.alerts, hd]; rfl
  | pulled result =>
    cases result with
    | fetched ticket value =>
      obtain ⟨lines, hl⟩ := s.handle_fetched ticket value
      have hlines : raised (lines.map .write) = [] := by simp [raised]
      rw [hl]
      dsimp only
      rw [raised_append, hlines, update_raised]
      rfl
    | failed ticket error =>
      cases hf : s.failing with
      | true => simp only [handle, handlePull, hf, if_true]; rfl
      | false => simp only [handle, handlePull, hf, Bool.false_eq_true, if_false]; rfl
    | broken reason => rfl
    | cancelled => rfl
  | control control =>
    cases control with
    | refresh => exact s.requestPull_raised
    | unmount => rfl
  | tick => exact s.requestPull_raised
  | streamClosed => rfl

theorem handle_failing (s : Session d) (input : Input d) :
    (s.handle input).1.failing = isDown s.failing input.verdict.toList := by
  cases input with
  | push payload =>
    cases hd : decodePayload d.topic d.read payload with
    | ok value => rw [handlePush_ok hd, update_failing]; rfl
    | error fault => simp only [handle, handlePush, hd]; rfl
  | pulled result =>
    cases result with
    | fetched ticket value =>
      obtain ⟨lines, hl⟩ := s.handle_fetched ticket value
      rw [hl]
      exact update_failing _ _
    | failed ticket error =>
      cases hf : s.failing with
      | true => simp only [handle, handlePull, hf, if_true]; rfl
      | false => simp only [handle, handlePull, hf, Bool.false_eq_true, if_false]; rfl
    | broken reason => rfl
    | cancelled => rfl
  | control control =>
    cases control with
    | refresh => exact s.requestPull_failing
    | unmount => rfl
  | tick => exact s.requestPull_failing
  | streamClosed => rfl

end Session

/-- What the pulls that some turns handled told, in order. -/
def verdicts (turns : List (Turn d α)) : List Verdict := turns.filterMap fun t => t.input.verdict

/-- What was wrong with the pushes that some turns could not read, in order. -/
def faults (turns : List (Turn d α)) : List MalformedPayload := turns.filterMap fun t => t.input.fault?

/-- The alerts that some turns raised, in order. -/
def notices (turns : List (Turn d α)) : List Notice := turns.flatMap fun t => raised t.effects

/-- Is about a domain that cannot be fetched. -/
def isUnfetched (d : Domain) (n : Notice) : Bool := n.title = "Failed to fetch " ++ d.name

theorem isUnfetched_unfetched (d : Domain) (error : RemoteError) :
    isUnfetched d (unfetched d error) = true :=
  decide_eq_true rfl

theorem isUnfetched_unread (d : Domain) (fault : MalformedPayload) :
    isUnfetched d (unread d fault) = false := by
  cases d <;> rfl

theorem verdicts_append (turns : List (Turn d α)) (t : Turn d α) :
    verdicts (turns ++ [t]) = verdicts turns ++ t.input.verdict.toList :=
  filterMap_concat _ turns t

theorem faults_append (turns : List (Turn d α)) (t : Turn d α) :
    faults (turns ++ [t]) = faults turns ++ t.input.fault?.toList :=
  filterMap_concat _ turns t

/-- The alerts that an input calls for are about an outage that begins, or a push that cannot be read. -/
theorem alerts_eq (underWay : Bool) (input : Input d) :
    input.alerts underWay =
      (onsets underWay input.verdict.toList).map (unfetched d) ++ input.fault?.toList.map (unread d) := by
  cases input with
  | push payload =>
    cases hd : decodePayload d.topic d.read payload with
    | ok value => simp [Input.alerts, Input.verdict, Input.fault?, hd, onsets]
    | error fault => simp [Input.alerts, Input.verdict, Input.fault?, hd, onsets]
  | pulled result =>
    cases result with
    | failed ticket error => cases underWay <;> rfl
    | _ => rfl
  | control control => cases control <;> rfl
  | _ => rfl

theorem filter_alerts (errors : List RemoteError) (faults : List MalformedPayload) :
    (errors.map (unfetched d) ++ faults.map (unread d)).filter (isUnfetched d) =
        errors.map (unfetched d) ∧
      (errors.map (unfetched d) ++ faults.map (unread d)).filter (!isUnfetched d ·) =
        faults.map (unread d) := by
  constructor
  · simp [List.filter_map, Function.comp_def, isUnfetched_unfetched, isUnfetched_unread]
  · simp [List.filter_map, Function.comp_def, isUnfetched_unfetched, isUnfetched_unread]

theorem Turn.Lawful.handled {earlier : List (Turn d α)} {t : Turn d α} (h : t.Lawful earlier) :
    t.after = (t.before.handle t.input).1 ∧ t.effects = (t.before.handle t.input).2 := by
  obtain ⟨rest, htake, hstep⟩ := h.stepped
  rw [Session.step, htake] at hstep
  simp only [Option.map_some, Option.some.injEq, Prod.mk.injEq] at hstep
  obtain ⟨hafter, -, heffects⟩ := hstep
  exact ⟨hafter.symm, heffects.symm⟩

section Lawful

variable {turns : List (Turn d α)}

/-- A session knows whether an outage is under way. -/
theorem sessionAfter_failing (h : ∀ earlier t, earlier ++ [t] <+: turns → t.Lawful earlier) :
    (sessionAfter turns).failing = isDown false (verdicts turns) := by
  induction turns using List.reverseRecOn with
  | nil => rfl
  | append_singleton turns t ih =>
    have ih := ih fun earlier u hp => h earlier u (hp.trans (List.prefix_append ..))
    have ht := h turns t (List.prefix_refl _)
    have hafter : sessionAfter (turns ++ [t]) = t.after := by simp [sessionAfter]
    rw [hafter, ht.handled.1, Session.handle_failing, ht.follows, ih, verdicts_append, isDown_append]

theorem raised_eq_alerts (h : ∀ earlier t, earlier ++ [t] <+: turns → t.Lawful earlier)
    {earlier : List (Turn d α)} {t : Turn d α} (hp : earlier ++ [t] <+: turns) :
    raised t.effects = t.input.alerts (isDown false (verdicts earlier)) := by
  have ht := h earlier t hp
  have hbefore := sessionAfter_failing fun before u hu =>
    h before u (hu.trans ((List.prefix_append ..).trans hp))
  rw [ht.handled.2, Session.handle_raised, ht.follows, hbefore]

/-- The alerts of a run are about the outages that began, and the pushes that could not be read. -/
theorem notices_filter (h : ∀ earlier t, earlier ++ [t] <+: turns → t.Lawful earlier) :
    (notices turns).filter (isUnfetched d) = (onsets false (verdicts turns)).map (unfetched d) ∧
      (notices turns).filter (!isUnfetched d ·) = (faults turns).map (unread d) := by
  induction turns using List.reverseRecOn with
  | nil => exact ⟨rfl, rfl⟩
  | append_singleton turns t ih =>
    obtain ⟨houtages, hfaults⟩ := ih fun earlier u hp => h earlier u (hp.trans (List.prefix_append ..))
    have hlast : notices (turns ++ [t]) = notices turns ++ raised t.effects := by simp [notices]
    obtain ⟨hdown, hunread⟩ := filter_alerts (d := d)
      (onsets (isDown false (verdicts turns)) t.input.verdict.toList) t.input.fault?.toList
    rw [hlast, raised_eq_alerts h (List.prefix_refl _), alerts_eq]
    constructor
    · rw [List.filter_append, houtages, hdown, verdicts_append, onsets_append, List.map_append]
    · rw [List.filter_append, hfaults, hunread, faults_append, List.map_append]

end Lawful

namespace Exchange

/-- Whatever the remote side does, a session raises one alert for each outage, with the error of its
first failure, and one for each push that cannot be read, and no other. -/
theorem run_alerts_once_per_outage (topic : Topic) (events : List (Event d)) :
    let turns := (run topic events).loop.turns
    (∀ earlier t, earlier ++ [t] <+: turns →
        raised t.effects = t.input.alerts (isDown false (verdicts earlier))) ∧
      ((notices turns).filter (isUnfetched d)).length = (outages (verdicts turns)).length ∧
      (notices turns).filter (isUnfetched d) =
        ((outages (verdicts turns)).filterMap List.head?).map (unfetched d) ∧
      (notices turns).filter (!isUnfetched d ·) = (faults turns).map (unread d) := by
  intro turns
  have h := (run_sound topic events).lawful
  obtain ⟨houtages, hfaults⟩ := notices_filter h
  refine ⟨fun earlier t hp => raised_eq_alerts h hp, ?_, ?_, hfaults⟩
  · rw [houtages, List.length_map, length_outages]
  · rw [houtages, heads_outages]

end Exchange

end VoiceAdmin.Sync
