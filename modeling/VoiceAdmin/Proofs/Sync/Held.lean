import VoiceAdmin.Sync.Cache

namespace VoiceAdmin.Sync

/-- What is held is the last value accepted, or compares equal to it. -/
def Holds {α : Type} [BEq α] : Option α → Option α → Prop
  | none, none => True
  | some held, some last => held = last ∨ (held == last) = true
  | _, _ => False

theorem Holds.eq {α : Type} [BEq α] [LawfulBEq α] {held last : Option α} (h : Holds held last) :
    held = last := by
  cases held with
  | none => cases last with
    | none => rfl
    | some v => exact h.elim
  | some a => cases last with
    | none => exact h.elim
    | some v =>
      rcases h with h | h
      · rw [h]
      · rw [eq_of_beq h]

namespace Cache

variable {α : Type} [BEq α]

theorem accept_of_beq {c : Cache α} {value : α} (h : (c.value == some value) = true) :
    c.accept value = ({ c with accepted := c.accepted + 1 }, .unchanged) := by
  simp [accept, h]

theorem accept_of_not_beq {c : Cache α} {value : α} (h : (c.value == some value) = false) :
    c.accept value = ({ c with accepted := c.accepted + 1, value := some value }, .replaced) := by
  simp [accept, h]

theorem accept_pushes (c : Cache α) (value : α) : (c.accept value).1.pushes = c.pushes := by
  cases h : c.value == some value
  · rw [accept_of_not_beq h]
  · rw [accept_of_beq h]

theorem accept_accepted (c : Cache α) (value : α) :
    (c.accept value).1.accepted = c.accepted + 1 := by
  cases h : c.value == some value
  · rw [accept_of_not_beq h]
  · rw [accept_of_beq h]

theorem accept_holds (c : Cache α) (value : α) : Holds (c.accept value).1.value (some value) := by
  cases h : c.value == some value with
  | false =>
    rw [accept_of_not_beq h]
    exact .inl rfl
  | true =>
    rw [accept_of_beq h]
    cases hv : c.value with
    | none => simp [hv] at h
    | some held => exact .inr (by simpa [hv] using h)

theorem accept_isAccepted (c : Cache α) (value : α) : (c.accept value).2.isAccepted = true := by
  cases h : c.value == some value
  · rw [accept_of_not_beq h]; rfl
  · rw [accept_of_beq h]; rfl

theorem push_pushes (c : Cache α) (value : α) : (c.push value).1.pushes = c.pushes + 1 :=
  accept_pushes _ value

theorem push_accepted (c : Cache α) (value : α) : (c.push value).1.accepted = c.accepted + 1 :=
  accept_accepted _ value

theorem push_holds (c : Cache α) (value : α) : Holds (c.push value).1.value (some value) :=
  accept_holds _ value

/-- No push since the ticket was taken: the result is taken over. -/
theorem pull_fresh {c : Cache α} {ticket : Ticket} (h : ticket.pushes = c.pushes) (value : α) :
    c.pull ticket value = c.accept value := by
  simp [pull, h]

theorem pull_stale {c : Cache α} {ticket : Ticket} (h : ticket.pushes ≠ c.pushes) (value : α) :
    c.pull ticket value = (c, .stale) := by
  simp [pull, Ne.symm h]

theorem pull_eq_stale (c : Cache α) (ticket : Ticket) (value : α) :
    (c.pull ticket value).2 = .stale ↔ ticket.pushes ≠ c.pushes := by
  by_cases h : ticket.pushes = c.pushes
  · have ha := c.accept_isAccepted value
    rw [pull_fresh h]
    constructor
    · intro hs
      simp [hs, Applied.isAccepted] at ha
    · intro hn
      exact (hn h).elim
  · simp [pull_stale h, h]

theorem pull_pushes (c : Cache α) (ticket : Ticket) (value : α) :
    (c.pull ticket value).1.pushes = c.pushes := by
  unfold pull
  split
  · exact c.accept_pushes value
  · rfl

end Cache

end VoiceAdmin.Sync
