import Mathlib.Data.List.Induction

namespace VoiceAdmin

theorem filterMap_concat {α β : Type*} (read : α → Option β) (log : List α) (e : α) :
    (log ++ [e]).filterMap read = log.filterMap read ++ (read e).toList := by
  rw [List.filterMap_append]
  cases h : read e <;> simp [h]

/-- A state, with what was done on the way to it. -/
structure Recorded (σ α ρ : Type) where
  state : σ
  log : List (α × ρ) := []

namespace Recorded

variable {σ α ρ : Type} {act : σ → α → ρ × σ}

def record (act : σ → α → ρ × σ) (r : Recorded σ α ρ) (op : α) : Recorded σ α ρ where
  state := (act r.state op).2
  log := r.log ++ [(op, (act r.state op).1)]

def run (act : σ → α → ρ × σ) (start : σ) (ops : List α) : Recorded σ α ρ :=
  ops.foldl (record act) { state := start }

theorem run_append (start : σ) (ops : List α) (op : α) :
    run act start (ops ++ [op]) = (run act start ops).record act op := by
  simp [run, List.foldl_append]

theorem run_induction {start : σ} {motive : List α → Recorded σ α ρ → Prop}
    (nil : motive [] { state := start })
    (record : ∀ ops r, motive ops r → ∀ op, motive (ops ++ [op]) (r.record act op)) (ops : List α) :
    motive ops (run act start ops) := by
  induction ops using List.reverseRecOn with
  | nil => exact nil
  | append_singleton ops op ih => exact run_append start ops op ▸ record ops _ ih op

end Recorded

end VoiceAdmin
