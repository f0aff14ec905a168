import VoiceAdmin.Proofs.Timeline.Calls
import VoiceAdmin.Proofs.Timeline.Release
import VoiceAdmin.Proofs.Timeline.Stopping

namespace VoiceAdmin.Timeline.World

variable {w w' w'' : World} {topic : Topic} {call id sub : Nat} {task : Task} {log : List Deed}

/-- What happens, turn by turn. -/
inductive Course : World → List Deed → World → Prop where
  | outside {w w' : World} {log : List Deed} (h : w.Passes log w') (all : ∀ deed ∈ log, deed.Outside) :
      Course w log w'
  | turn {w : World} {log : List Deed} (id : Nat) (h : w.Passes log (w.run id))
      (all : ∀ deed ∈ log, deed.By id) : Course w log (w.run id)
  /-- The first in line has its turn. -/
  | first {w : World} {log : List Deed} {id : Nat} {line : List Nat} (head : w.ready = id :: line)
      (h : Passes { w with ready := line } log (World.run { w with ready := line } id))
      (all : ∀ deed ∈ log, deed.By id) : Course w (.queue :: log) (World.run { w with ready := line } id)
  /-- When nobody else can go on, those do who have had their turns. -/
  | resume {w : World} (empty : w.ready = []) :
      Course w [.queue] { w with ready := w.deferred, deferred := [] }
  | trans {w w' w'' : World} {log log' : List Deed} (first : Course w log w') (second : Course w' log' w'') :
      Course w (log ++ log') w''

/-- Every call that has not been sent stands in line. -/
def Lined (w : World) : Prop := ∀ id, w.call? id ≠ none → id ∈ w.ready

/-- A task stands in line if it was told to stop. -/
def Heeds (w : World) (id : Nat) : Prop := w.Told id → id ∈ w.ready ∨ id ∈ w.deferred

namespace Course

theorem passes (h : w.Course log w') : w.Passes log w' := by
  induction h with
  | outside h => exact h
  | turn _ h => exact h
  | @first w _ _ line _ h => exact (Passes.step (.queue w line w.deferred)).trans h
  | @resume w => exact .step (.queue w _ _)
  | trans _ _ first second => exact first.trans second

/-- Whoever is in line keeps his place while somebody else has his turn. -/
theorem lined_run (h : w.Passes log (w.run id)) (all : ∀ deed ∈ log, deed.By id) (hw : w.Lawful)
    (hl : ∀ i, i ≠ id → w.call? i ≠ none → i ∈ w.ready) : (w.run id).Lined := by
  have hline : .queue ∉ log := fun h => all _ h
  intro i hcall
  have hne : i ≠ id := fun hi => hcall (hi ▸ run_call_none hw id)
  exact (h.joins_call hline hcall).elim (·) fun hcall => (h.line hline).1.subset (hl i hne hcall)

theorem lined (h : w.Course log w') (hw : w.Lawful) (hl : w.Lined) : w'.Lined := by
  induction h with
  | @outside w w' log h all =>
    have hline : .queue ∉ log := fun h => all _ h
    exact fun i hcall =>
      (h.joins_call hline hcall).elim (·) fun hcall => (h.line hline).1.subset (hl i hcall)
  | turn id h all => exact lined_run h all hw fun i _ => hl i
  | first head h all =>
    refine lined_run h all { hw with } fun i hi hcall => ?_
    have hmem := hl i hcall
    rw [head] at hmem
    exact (List.mem_cons.mp hmem).resolve_left hi
  | @resume w empty =>
    intro i hcall
    have hmem := hl i hcall
    rw [empty] at hmem
    cases hmem
  | trans first _ ih ih' => exact ih' (first.passes.lawful hw) (ih hw hl)

theorem heeds_run {i : Nat} (h : w.Passes log (w.run i)) (all : ∀ deed ∈ log, deed.By i)
    (hh : id ≠ i → w.Heeds id) : (w.run i).Heeds id := by
  have hline : .queue ∉ log := fun h => all _ h
  obtain ⟨hready, hdeferred⟩ := h.line hline
  intro ht
  rcases h.joins_told hline ht with hjoined | hbefore
  · exact .inl hjoined
  · by_cases hi : id = i
    · subst hi
      rcases run_told hbefore with hgone | ⟨-, hmem⟩
      · obtain ⟨task, hf, -⟩ := ht
        rw [hgone] at hf
        cases hf
      · exact .inr hmem
    · exact (hh hi hbefore).imp (hready.subset ·) (hdeferred.subset ·)

theorem heeds (h : w.Course log w') (hh : w.Heeds id) : w'.Heeds id := by
  induction h with
  | @outside w w' log h all =>
    have hline : .queue ∉ log := fun h => all _ h
    obtain ⟨hready, hdeferred⟩ := h.line hline
    exact fun ht => (h.joins_told hline ht).elim .inl fun ht =>
      (hh ht).imp (hready.subset ·) (hdeferred.subset ·)
  | turn i h all => exact heeds_run h all fun _ => hh
  | first head h all =>
    refine heeds_run h all fun hi ht => ?_
    have hmem := hh ht
    rw [head, List.mem_cons, or_assoc] at hmem
    exact hmem.resolve_left hi
  | @resume w empty =>
    intro ht
    have hmem := hh ht
    rw [empty] at hmem
    exact .inl (hmem.resolve_left List.not_mem_nil)
  | trans _ _ ih ih' => exact ih' (ih hh)

/-- Who was told to stop remains so until it has ended. -/
theorem stopping (h : w.Course log w') (hw : w.Lawful)
    (hs : w.Running topic id sub ∧ w.Told id ∨ w.Ended topic id sub) :
    w'.Running topic id sub ∧ w'.Told id ∨ w'.Ended topic id sub := by
  -- In a turn of its own it stops or stays told; in those of others it is not touched.
  have hrun : ∀ {v : World} {i : Nat} {log : List Deed}, v.Lawful → v.Passes log (v.run i) →
      (∀ deed ∈ log, deed.By i) → v.Running topic id sub → v.Told id →
      (v.run i).Running topic id sub ∧ (v.run i).Told id ∨ (v.run i).Ended topic id sub := by
    intro v i log hv h all hr ht
    rcases h.running hv hr with hr' | he
    · refine .inl ⟨hr', ?_⟩
      by_cases hi : i = id
      · subst hi
        rcases run_told ht with hgone | ⟨ht', -⟩
        · obtain ⟨task, hf, -⟩ := hr'.holds
          rw [hgone] at hf
          cases hf
        · exact ht'
      · exact h.told hv ht (fun s hm => hi (all _ hm).symm) fun hm => hi (all _ hm).symm
    · exact .inr he
  rcases hs with ⟨hr, ht⟩ | he
  · induction h with
    | @outside w w' log h all =>
      refine (h.running hw hr).imp_left fun hr' => ⟨hr', ?_⟩
      exact h.told hw ht (fun s hm => all _ hm) fun hm => all _ hm
    | turn i h all => exact hrun hw h all hr ht
    | @first w _ _ line _ h all =>
      have hqueue : w.Passes [.queue] { w with ready := line } := .step (.queue w line w.deferred)
      exact hrun (hqueue.lawful hw) h all (hqueue.running_of_goes hw hr (by simp))
        (hqueue.told hw ht (by simp) (by simp))
    | @resume w =>
      have hqueue : w.Passes [.queue] { w with ready := w.deferred, deferred := [] } :=
        .step (.queue w _ _)
      exact .inl ⟨hqueue.running_of_goes hw hr (by simp), hqueue.told hw ht (by simp) (by simp)⟩
    | trans first second ih ih' =>
      rcases ih hw hr ht with ⟨hr', ht'⟩ | he
      · exact ih' (first.passes.lawful hw) hr' ht'
      · exact .inr (second.passes.ended (first.passes.lawful hw) he)
  · exact .inr (h.passes.ended hw he)

end Course

end VoiceAdmin.Timeline.World
