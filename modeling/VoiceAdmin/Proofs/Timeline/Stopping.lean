import VoiceAdmin.Proofs.Timeline.Calls

namespace VoiceAdmin.Timeline.World

variable {w w' : World} {id i : Nat} {old task : Task} {log : List Deed}

/-- A task is there that was told to stop. -/
def Told (w : World) (id : Nat) : Prop := ∃ task, w.find? id = some task ∧ task.told = true

theorem told_setTask (h : w.Told id) (there : w.find? i = some old)
    (told : old.told = true → task.told = true) : (w.setTask i task).Told id := by
  obtain ⟨known, hf, htold⟩ := h
  by_cases hi : id = i
  · subst hi
    obtain rfl : old = known := Option.some.inj (there.symm.trans hf)
    exact ⟨task, find?_setTask_self there task, told htold⟩
  · exact ⟨known, (find?_setTask_other hi w task).trans hf, htold⟩

theorem Told.congr (h : w.Told id) (heq : w'.find? id = w.find? id) : w'.Told id := by
  obtain ⟨task, hf, htold⟩ := h
  exact ⟨task, heq.trans hf, htold⟩

/-- Who was told to stop remains so until it goes on with its own work. -/
theorem Passes.told (h : w.Passes log w') (hw : w.Lawful) (ht : w.Told id)
    (hgoes : ∀ sub, .finish id sub ∉ log) (hrests : .own id ∉ log) : w'.Told id := by
  induction h with
  | trans first _ ih ih' =>
    exact ih' (first.lawful hw)
      (ih hw ht (fun s h => hgoes s (List.mem_append_left _ h)) fun h => hrests (List.mem_append_left _ h))
      (fun s h => hgoes s (List.mem_append_right _ h)) fun h => hrests (List.mem_append_right _ h)
  | @step w w' log h =>
    have hthere := ht
    obtain ⟨task, hf, htold⟩ := hthere
    cases h with
    | aside h => exact ht.congr (find?_congr h.tasks id)
    | spawn => exact ⟨task, find?_spawn_known hf _, htold⟩
    | mount on =>
      have hf : (w.mapRegistry fun r => (r.subscribe on).2).find? id = some task := hf
      exact ⟨task, find?_spawn_known hf _, htold⟩
    | reach there _ _ told => exact (told_setTask ht there told).congr (find?_wake _ _ _)
    | look there _ _ told => exact told_setTask ht there fun h => told.trans h
    | @own i _ _ there =>
      have hi : id ≠ i := by
        rintro rfl
        exact hrests (List.mem_singleton_self _)
      exact ⟨task, (find?_setTask_other hi _ _).trans hf, htold⟩
    | drop holds =>
      obtain ⟨old, there, -⟩ := holds
      exact (told_setTask ht there fun _ => rfl).congr (find?_wake _ _ _)
    | center there =>
      refine (told_setTask ht there fun h => ?_).congr (find?_wake _ _ _)
      simp only [Task.told, List.contains_append, Bool.or_eq_true] at h ⊢
      exact .inl h
    | @remove i old there free =>
      have hi : id ≠ i := by
        rintro rfl
        obtain rfl : old = task := Option.some.inj (there.symm.trans hf)
        rw [Task.told_eq_false free] at htold
        cases htold
      exact ⟨task, by rw [find?_remove, if_neg hi, hf], htold⟩
    | @finish i s =>
      have hi : id ≠ i := by
        rintro rfl
        exact hgoes s (List.mem_singleton_self _)
      have howner : task.owner? = none := by
        cases task with
        | pull _ _ _ => cases htold
        | answer _ _ _ => cases htold
        | _ => rfl
      exact ⟨task, hw.find?_finish_other hf howner hi s, htold⟩
    | @call i command notifier there =>
      have hi : id ≠ i := by
        rintro rfl
        cases there.symm.trans hf
        cases htold
      exact ⟨task, (find?_setTask_other hi _ _).trans hf, htold⟩
    | _ => exact ht

theorem Passes.joins_told (h : w.Passes log w') (hline : .queue ∉ log) (ht : w'.Told id) :
    id ∈ w'.ready ∨ w.Told id := by
  obtain ⟨task, hf, htold⟩ := ht
  exact (h.joins hline hf).imp_right fun ⟨old, hold, heases⟩ => ⟨old, hold, heases.told htold⟩

/-- A session that was told to stop stops in its turn, or has come to the end of the turn before. -/
theorem runSession_told {d : Domain} {old task : SessionTask d} (turns : Nat)
    (there : w.find? id = some (.session d old)) (h : .unmount ∈ task.controls) :
    (runSession id d turns task w).find? id = none ∨
      (runSession id d turns task w).Told id ∧ id ∈ (runSession id d turns task w).deferred := by
  induction turns generalizing task w with
  | zero =>
    refine .inr ⟨⟨.session d task, find?_setTask_self there _, by simpa [Task.told] using h⟩, ?_⟩
    exact List.mem_append_right _ (List.mem_singleton_self id)
  | succ more ih =>
    cases hstep : task.session.step (w.sessionInbox task) with
    | none =>
      have hnone : task.controls = [] := Sync.Session.controls_of_waiting hstep
      exact absurd hnone (List.ne_nil_of_mem h)
    | some taken =>
      obtain ⟨session, rest, effects⟩ := taken
      obtain ⟨input, htakes, hhandle⟩ := Sync.Session.step_takes hstep
      rw [runSession_goes hstep]
      split
      · exact .inl (find?_finish_self _ _ _)
      · rename_i hgoes
        refine ih (Within.sessionAfter there hstep).2
          ((htakes.control_or h).resolve_left fun hinput => hgoes ?_)
        have hstop := (task.session.handle_stop input).mpr hinput
        rw [hhandle] at hstop
        exact List.contains_iff_mem.mpr hstop

theorem runCenter_told {old task : CenterTask} (turns : Nat) (there : w.find? id = some (.center old))
    (h : .shutdown ∈ task.messages) :
    (runCenter id turns task w).find? id = none ∨
      (runCenter id turns task w).Told id ∧ id ∈ (runCenter id turns task w).deferred := by
  induction turns generalizing task w with
  | zero =>
    refine .inr ⟨⟨.center task, find?_setTask_self there _, by simpa [Task.told] using h⟩, ?_⟩
    exact List.mem_append_right _ (List.mem_singleton_self id)
  | succ more ih =>
    cases hstep : task.center.step w.now (w.centerInbox task) with
    | error panic =>
      rw [runCenter_breaks hstep]
      exact .inl (find?_finish_self _ _ _)
    | ok taken =>
      cases taken with
      | none =>
        obtain ⟨first, -, hwaits⟩ := Alerts.Center.step_waiting hstep
        have hnone : task.messages = [] := (Alerts.Inbox.take_eq_none.mp hwaits).1
        exact absurd hnone (List.ne_nil_of_mem h)
      | some taken =>
        obtain ⟨center, rest, effects⟩ := taken
        obtain ⟨first, input, handled, -, htaken, hhandle, -⟩ := Alerts.Center.step_taken hstep
        rw [runCenter_goes hstep]
        split
        · exact .inl (find?_finish_self _ _ _)
        · rename_i hgoes
          have haside : w.Aside (w.centerAfter id task rest effects) := .centerAfter hstep
          have there' := (find?_congr haside.tasks id).trans there
          refine ih there' ((htaken.message_or h).resolve_left fun hinput => hgoes ?_)
          rw [hinput] at hhandle
          cases hhandle
          rfl

/-- Whoever was told to stop stops in its turn, or goes on when nobody else can. -/
theorem run_told (h : w.Told id) :
    (w.run id).find? id = none ∨ (w.run id).Told id ∧ id ∈ (w.run id).deferred := by
  obtain ⟨task, there, htold⟩ := h
  cases task with
  | session d task =>
    have hrun : w.run id = runSession id d turnLimit task w := by simp only [World.run, there]
    exact hrun ▸ runSession_told turnLimit there (by simpa [Task.told] using htold)
  | center task =>
    have hrun : w.run id = runCenter id turnLimit task w := by simp only [World.run, there]
    exact hrun ▸ runCenter_told turnLimit there (by simpa [Task.told] using htold)
  | dropped sub => exact .inl (run_dropped there ▸ find?_finish_self _ _ _)
  | _ => cases htold

end VoiceAdmin.Timeline.World
