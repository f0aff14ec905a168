import Mathlib.Data.List.Induction
import VoiceAdmin.Proofs.Sync.Held

namespace VoiceAdmin.Sync.Cache

variable {α : Type}

/-- What is done with a cache. A ticket is named by its place among those taken. Tickets may be used in
any order, several times or not at all, and any number of them may be out at one time. -/
inductive Operation (α : Type) where
  | begin
  | result (ticket : Nat) (value : α)
  | failed (ticket : Nat)
  | push (value : α)

namespace Operation

def isBegin : Operation α → Bool
  | begin => true
  | _ => false

def isPush : Operation α → Bool
  | push _ => true
  | _ => false

def isResult : Operation α → Bool
  | result _ _ => true
  | _ => false

def pushed : Operation α → Option α
  | push value => some value
  | _ => none

/-- The payload of a result whose ticket was not among the first `n`. -/
def resultFrom (n : Nat) : Operation α → Option α
  | result ticket value => if n ≤ ticket then some value else none
  | _ => none

end Operation

/-- A cache with the tickets taken from it, the first one first. -/
structure History (α : Type) where
  cache : Cache α := {}
  tickets : List Ticket := []

namespace History

variable [BEq α]

/-- A failed pull is only reported. -/
def apply (h : History α) : Operation α → History α
  | .begin => { h with tickets := h.tickets ++ [h.cache.ticket] }
  | .result ticket value =>
    match h.tickets[ticket]? with
    | some t => { h with cache := (h.cache.pull t value).1 }
    | none => h
  | .failed _ => h
  | .push value => { h with cache := (h.cache.push value).1 }

/-- What became of the update that an operation offers. -/
def outcome (h : History α) : Operation α → Option Applied
  | .result ticket value => (h.tickets[ticket]?).map fun t => (h.cache.pull t value).2
  | .push value => some (h.cache.push value).2
  | _ => none

def run (ops : List (Operation α)) : History α := ops.foldl apply {}

/-- Whether an operation is a result that is not stale. -/
def acceptsResult (h : History α) (op : Operation α) : Bool :=
  op.isResult && (h.outcome op).any Applied.isAccepted

/-- How many of the operations from a given state on are results that are not stale. -/
def acceptedResults (h : History α) : List (Operation α) → Nat
  | [] => 0
  | op :: rest => (if h.acceptsResult op then 1 else 0) + acceptedResults (h.apply op) rest

end History

def sinceLastPush (ops : List (Operation α)) : List (Operation α) :=
  (ops.reverse.takeWhile fun op => !op.isPush).reverse

/-- How many tickets were taken before the last push. -/
def overtaken (ops : List (Operation α)) : Nat :=
  ops.countP Operation.isBegin - (sinceLastPush ops).countP Operation.isBegin

/-- The payload of the latest result whose ticket was taken after the last push; without one, that of the
last push. -/
def latest (ops : List (Operation α)) : Option α :=
  ((sinceLastPush ops).filterMap (Operation.resultFrom (overtaken ops))).getLast? <|>
    (ops.filterMap Operation.pushed).getLast?

/-- Every result comes with a ticket that was taken before; `taken` were taken before the first
operation. -/
def Ticketed (taken : Nat) : List (Operation α) → Prop
  | [] => True
  | .begin :: rest => Ticketed (taken + 1) rest
  | .result ticket _ :: rest => ticket < taken ∧ Ticketed taken rest
  | .failed ticket :: rest => ticket < taken ∧ Ticketed taken rest
  | .push _ :: rest => Ticketed taken rest

theorem sinceLastPush_push (ops : List (Operation α)) (value : α) :
    sinceLastPush (ops ++ [.push value]) = [] := by
  simp [sinceLastPush, Operation.isPush]

theorem sinceLastPush_append (ops : List (Operation α)) {op : Operation α}
    (h : op.isPush = false) : sinceLastPush (ops ++ [op]) = sinceLastPush ops ++ [op] := by
  simp [sinceLastPush, h]

theorem overtaken_push (ops : List (Operation α)) (value : α) :
    overtaken (ops ++ [.push value]) = ops.countP Operation.isBegin := by
  simp [overtaken, sinceLastPush_push, Operation.isBegin]

theorem overtaken_append (ops : List (Operation α)) {op : Operation α} (h : op.isPush = false) :
    overtaken (ops ++ [op]) = overtaken ops := by
  unfold overtaken
  rw [sinceLastPush_append ops h]
  simp only [List.countP_append]
  omega

theorem overtaken_le (ops : List (Operation α)) : overtaken ops ≤ ops.countP Operation.isBegin :=
  Nat.sub_le _ _

theorem latest_push (ops : List (Operation α)) (value : α) :
    latest (ops ++ [.push value]) = some value := by
  simp [latest, sinceLastPush_push, Operation.pushed]

/-- Only a push, or a result with a ticket that no push has overtaken, changes what is latest. -/
theorem latest_append (ops : List (Operation α)) {op : Operation α} (h : op.isPush = false)
    (hr : op.resultFrom (overtaken ops) = none) : latest (ops ++ [op]) = latest ops := by
  have hp : op.pushed = none := by cases op <;> simp_all [Operation.pushed, Operation.isPush]
  unfold latest
  rw [sinceLastPush_append ops h, overtaken_append ops h]
  simp [List.filterMap_append, hr, hp]

theorem latest_result (ops : List (Operation α)) {ticket : Nat} {value : α}
    (h : overtaken ops ≤ ticket) : latest (ops ++ [.result ticket value]) = some value := by
  unfold latest
  rw [sinceLastPush_append ops rfl, overtaken_append ops rfl]
  simp [List.filterMap_append, Operation.resultFrom, h]

theorem ticketed_append (taken : Nat) (early late : List (Operation α)) :
    Ticketed taken (early ++ late) ↔
      Ticketed taken early ∧ Ticketed (taken + early.countP Operation.isBegin) late := by
  induction early generalizing taken with
  | nil => simp [Ticketed]
  | cons op rest ih =>
    cases op with
    | begin =>
      simp only [List.cons_append, Ticketed, ih, List.countP_cons, Operation.isBegin, ↓reduceIte]
      rw [Nat.add_assoc, Nat.add_comm 1]
    | result ticket value => simp [Ticketed, ih, Operation.isBegin, and_assoc]
    | failed ticket => simp [Ticketed, ih, Operation.isBegin, and_assoc]
    | push value => simp [Ticketed, ih, Operation.isBegin]

variable [BEq α]

namespace History

theorem run_append (ops : List (Operation α)) (op : Operation α) :
    run (ops ++ [op]) = (run ops).apply op := by
  simp [run, List.foldl_append]

/-- A cache and its tickets are as the history says. A ticket is good while no push has overtaken it. -/
structure Follows (h : History α) (ops : List (Operation α)) : Prop where
  pushes : h.cache.pushes = ops.countP Operation.isPush
  taken : h.tickets.length = ops.countP Operation.isBegin
  earlier : ∀ t ∈ h.tickets, t.pushes ≤ h.cache.pushes
  good : ∀ i t, h.tickets[i]? = some t → (t.pushes = h.cache.pushes ↔ overtaken ops ≤ i)
  held : Holds h.cache.value (latest ops)

theorem Follows.nil : Follows ({} : History α) [] :=
  ⟨rfl, rfl, by simp, by simp, trivial⟩

theorem Follows.begin {h : History α} {ops : List (Operation α)} (hf : h.Follows ops) :
    (h.apply .begin).Follows (ops ++ [.begin]) where
  pushes := by simpa [apply, Operation.isPush] using hf.pushes
  taken := by simpa [apply, Operation.isBegin] using hf.taken
  earlier := by
    intro t ht
    rcases List.mem_append.mp ht with ht | ht
    · exact hf.earlier t ht
    · simp only [List.mem_singleton] at ht
      simp [ht, apply, ticket]
  good := by
    intro i t ht
    rw [overtaken_append ops rfl]
    by_cases hi : i < h.tickets.length
    · exact hf.good i t (by simpa [apply, List.getElem?_append_left hi] using ht)
    · have hil : i = h.tickets.length := by
        have := (List.getElem?_eq_some_iff.mp ht).1
        simp only [apply, List.length_append, List.length_singleton] at this
        omega
      have htt : h.cache.ticket = t := by simpa [apply, hil] using ht
      have := overtaken_le ops
      have := hf.taken
      simp only [← htt, ticket, apply, true_iff]
      omega
  held := by
    rw [latest_append ops rfl rfl]
    exact hf.held

theorem Follows.push {h : History α} {ops : List (Operation α)} (hf : h.Follows ops) (value : α) :
    (h.apply (.push value)).Follows (ops ++ [.push value]) where
  pushes := by simp [apply, push_pushes, hf.pushes, Operation.isPush]
  taken := by simpa [apply, Operation.isBegin] using hf.taken
  earlier := by
    intro t ht
    have := hf.earlier t ht
    simp only [apply, push_pushes]
    omega
  good := by
    intro i t ht
    have hm : h.tickets[i]? = some t := ht
    have := hf.earlier t (List.mem_of_getElem? hm)
    have := (List.getElem?_eq_some_iff.mp hm).1
    have := hf.taken
    rw [overtaken_push]
    simp only [apply, push_pushes]
    omega
  held := by
    rw [latest_push]
    exact push_holds _ value

theorem Follows.failed {h : History α} {ops : List (Operation α)} (hf : h.Follows ops)
    (ticket : Nat) : (h.apply (.failed ticket)).Follows (ops ++ [.failed ticket]) where
  pushes := by simpa [apply, Operation.isPush] using hf.pushes
  taken := by simpa [apply, Operation.isBegin] using hf.taken
  earlier := hf.earlier
  good := by
    rw [overtaken_append ops rfl]
    exact hf.good
  held := by
    rw [latest_append ops rfl rfl]
    exact hf.held

theorem Follows.result {h : History α} {ops : List (Operation α)} (hf : h.Follows ops)
    {ticket : Nat} (ht : ticket < ops.countP Operation.isBegin) (value : α) :
    (h.apply (.result ticket value)).Follows (ops ++ [.result ticket value]) := by
  have hl : ticket < h.tickets.length := by rw [hf.taken]; exact ht
  have hget : h.tickets[ticket]? = some h.tickets[ticket] := List.getElem?_eq_getElem hl
  have happly : h.apply (.result ticket value) =
      { h with cache := (h.cache.pull h.tickets[ticket] value).1 } := by
    simp [apply, hget]
  have hgood := hf.good ticket _ hget
  rw [happly]
  refine ⟨?_, ?_, ?_, ?_, ?_⟩
  · simp [pull_pushes, hf.pushes, Operation.isPush]
  · simp [hf.taken, Operation.isBegin]
  · simpa only [pull_pushes] using hf.earlier
  · rw [overtaken_append ops rfl]
    simpa only [pull_pushes] using hf.good
  · by_cases hp : h.tickets[ticket].pushes = h.cache.pushes
    · rw [latest_result ops (hgood.mp hp), pull_fresh hp]
      exact accept_holds _ value
    · have hno : Operation.resultFrom (overtaken ops) (.result ticket value) = none := by
        simpa [Operation.resultFrom] using fun h => hp (hgood.mpr h)
      rw [latest_append ops rfl hno, pull_stale hp]
      exact hf.held

theorem Follows.apply {h : History α} {ops : List (Operation α)} (hf : h.Follows ops)
    {op : Operation α} (ht : Ticketed 0 (ops ++ [op])) : (h.apply op).Follows (ops ++ [op]) := by
  have hlast := ((ticketed_append 0 ops [op]).mp ht).2
  cases op with
  | begin => exact hf.begin
  | result ticket value => exact hf.result (by simpa [Ticketed] using hlast) value
  | failed ticket => exact hf.failed ticket
  | push value => exact hf.push value

theorem run_follows {ops : List (Operation α)} (h : Ticketed 0 ops) : (run ops).Follows ops := by
  induction ops using List.reverseRecOn with
  | nil => exact .nil
  | append_singleton ops op ih =>
    rw [run_append]
    exact (ih ((ticketed_append 0 ops [op]).mp h).1).apply h

/-- A ticket stays what it was when it was taken. -/
theorem tickets_foldl (h : History α) (ops : List (Operation α)) :
    h.tickets <+: (ops.foldl apply h).tickets := by
  induction ops generalizing h with
  | nil => exact List.prefix_rfl
  | cons op rest ih =>
    refine List.IsPrefix.trans ?_ (ih (h.apply op))
    cases op with
    | begin => exact List.prefix_append _ _
    | result ticket value =>
      simp only [apply]
      split <;> exact List.prefix_rfl
    | failed ticket => exact List.prefix_rfl
    | push value => exact List.prefix_rfl

/-- What a result comes to: whether a push lies between it and the taking of its ticket. -/
theorem outcome_result {early mid : List (Operation α)} (h : Ticketed 0 (early ++ .begin :: mid))
    (value : α) :
    (run (early ++ .begin :: mid)).outcome (.result (early.countP Operation.isBegin) value) =
        some .stale ↔ ∃ op ∈ mid, op.isPush = true := by
  have hearly := run_follows ((ticketed_append 0 early _).mp h).1
  have hall := run_follows h
  have hpre : (run (early ++ [.begin])).tickets <+: (run (early ++ .begin :: mid)).tickets := by
    have := tickets_foldl (run (early ++ [.begin])) mid
    simpa [run, List.foldl_append] using this
  have hget : (run (early ++ .begin :: mid)).tickets[early.countP Operation.isBegin]? =
      some (run early).cache.ticket := by
    have hat : (run (early ++ [.begin])).tickets[early.countP Operation.isBegin]? =
        some (run early).cache.ticket := by
      simp [run_append, apply, ← hearly.taken]
    obtain ⟨later, hlater⟩ := hpre
    rw [← hlater, List.getElem?_append_left (List.getElem?_eq_some_iff.mp hat).1]
    exact hat
  have hcount := hall.pushes
  rw [List.countP_append, List.countP_cons] at hcount
  simp only [outcome, hget, Option.map_some, Option.some.injEq, pull_eq_stale, ticket]
  rw [hearly.pushes, hcount, ← List.countP_pos_iff]
  simp [Operation.isPush]

theorem apply_accepted (h : History α) (op : Operation α) :
    (h.apply op).cache.accepted =
      h.cache.accepted + (if op.isPush then 1 else 0) + (if h.acceptsResult op then 1 else 0) := by
  cases op with
  | begin => rfl
  | failed ticket => rfl
  | push value => exact push_accepted _ value
  | result ticket value =>
    cases ht : h.tickets[ticket]? with
    | none => simp [apply, acceptsResult, outcome, ht, Operation.isPush]
    | some t =>
      simp only [apply, acceptsResult, outcome, ht, Operation.isPush, Operation.isResult,
        Option.map_some, Option.any_some]
      by_cases hp : t.pushes = h.cache.pushes
      · simp [pull_fresh hp, accept_accepted, accept_isAccepted]
      · simp [pull_stale hp, Applied.isAccepted]

theorem accepted_foldl (h : History α) (ops : List (Operation α)) :
    (ops.foldl apply h).cache.accepted =
      h.cache.accepted + ops.countP Operation.isPush + acceptedResults h ops := by
  induction ops generalizing h with
  | nil => rfl
  | cons op rest ih =>
    rw [List.foldl_cons, ih (h.apply op), apply_accepted, List.countP_cons, acceptedResults]
    omega

/-- Counters, staleness and value of a cache after any history. Nothing before the last push counts for
the value, nor does a pull that a push has overtaken or that failed. -/
theorem run_eq_closed_form {ops : List (Operation α)} (h : Ticketed 0 ops) :
    (run ops).cache.pushes = ops.countP Operation.isPush ∧
      (∀ early mid late value,
        ops = early ++ .begin :: mid ++ .result (early.countP Operation.isBegin) value :: late →
          ((run (early ++ .begin :: mid)).outcome
              (.result (early.countP Operation.isBegin) value) = some .stale ↔
            ∃ op ∈ mid, op.isPush = true)) ∧
      (run ops).cache.accepted =
        ops.countP Operation.isPush + acceptedResults {} ops ∧
      Holds (run ops).cache.value (latest ops) ∧
      (LawfulBEq α → (run ops).cache.value = latest ops) := by
  have hf := run_follows h
  refine ⟨hf.pushes, ?_, ?_, hf.held, fun _ => hf.held.eq⟩
  · intro early mid late value he
    subst he
    exact outcome_result ((ticketed_append 0 _ _).mp h).1 value
  · have := accepted_foldl {} ops
    simpa [run] using this

/-- Two tickets out at once, one of them overtaken and one used twice. -/
theorem run_reused_ticket :
    let ops : List (Operation Nat) :=
      [.begin, .begin, .result 1 5, .push 7, .begin, .result 0 1, .result 2 9, .result 2 8, .failed 1]
    Ticketed 0 ops ∧ (run ops).cache.value = some 8 ∧ (run ops).cache.pushes = 1 ∧
      (run ops).cache.accepted = 4 := by
  intro ops
  have h : Ticketed 0 ops := by simp [ops, Ticketed]
  obtain ⟨hpushes, _, haccepted, _, hvalue⟩ := run_eq_closed_form h
  refine ⟨h, (hvalue inferInstance).trans (by decide), hpushes.trans (by decide), ?_⟩
  exact haccepted.trans (by decide)

end History

end VoiceAdmin.Sync.Cache
