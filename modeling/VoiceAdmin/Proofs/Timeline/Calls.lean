import VoiceAdmin.Proofs.Timeline.Turns

namespace VoiceAdmin.Timeline

/-- A task that was given nothing urgent to do. -/
structure Task.Eases (old task : Task) : Prop where
  call : task.call? ≠ none → old.call? ≠ none
  told : task.told = true → old.told = true

theorem Task.Eases.refl (task : Task) : task.Eases task := ⟨fun h => h, fun h => h⟩

theorem Task.Eases.trans {first second third : Task} (h : first.Eases second) (h' : second.Eases third) :
    first.Eases third :=
  ⟨fun hcall => h.call (h'.call hcall), fun htold => h.told (h'.told htold)⟩

theorem Task.Stays.eases {old task : Task} (h : old.Stays task) (told : task.told = true → old.told = true) :
    old.Eases task :=
  ⟨fun hcall => absurd h.plain.2 hcall, told⟩

namespace World

variable {w w' w'' : World} {topic : Topic} {call id i sub : Nat} {old task : Task} {log : List Deed}

/-- A call that has not been sent. -/
def call? (w : World) (id : Nat) : Option (Command × Notifier) := (w.find? id).bind Task.call?

theorem call?_of_find? (h : w.find? id = some task) : w.call? id = task.call? := by
  rw [call?, h, Option.bind_some]

theorem find?_of_call? {command : Command} {notifier : Notifier}
    (h : w.call? id = some (command, notifier)) : w.find? id = some (.command command notifier) := by
  obtain ⟨task, hf, hcall⟩ := Option.bind_eq_some_iff.mp h
  cases task with
  | command c n =>
    cases hcall
    exact hf
  | _ => cases hcall

theorem call?_congr (h : w'.find? id = w.find? id) : w'.call? id = w.call? id := by
  rw [call?, call?, h]

theorem call?_setTask (there : w.find? i = some old) (plain : old.call? = none ∧ task.call? = none)
    (id : Nat) : (w.setTask i task).call? id = w.call? id := by
  rw [call?, find?_setTask]
  by_cases hid : id = i
  · rw [if_pos hid, hid, call?_of_find? there, there, plain.1]
    exact plain.2
  · rw [if_neg hid, call?]

theorem call?_remove (there : w.find? i = some old) (plain : old.call? = none) (id : Nat) :
    (w.remove i).call? id = w.call? id := by
  rw [call?, find?_remove]
  by_cases hid : id = i
  · rw [if_pos hid, hid, call?_of_find? there, plain]
    rfl
  · rw [if_neg hid, call?]

theorem call?_finish (hw : w.Lawful) (holds : w.Holds i sub) (id : Nat) :
    (w.finish i sub).call? id = w.call? id := by
  rw [call?, find?_finish]
  split
  · rename_i hends
    cases hf : w.find? id with
    | none => rw [call?, hf]
    | some task =>
      refine ((call?_of_find? hf).trans ?_).symm
      rcases hends with rfl | hpull
      · obtain ⟨known, hfind, hs⟩ := holds
        obtain rfl : known = task := Option.some.inj (hfind.symm.trans hf)
        exact Task.call?_eq_none hs
      · by_cases howner : task.owner? = none
        · exact absurd hpull (hw.not_mem_pullsOf hf howner)
        · cases task with
          | command _ _ => exact absurd rfl howner
          | _ => rfl
  · rw [call?]

/-- What was to be sent has been sent, once, or is still to be sent. -/
theorem Passes.accounted (h : w.Passes log w') (hw : w.Lawful) (hknown : call < w.nextTask) :
    (w.call? call).toList = sentBy call log ++ (w'.call? call).toList := by
  induction h with
  | trans first _ ih ih' =>
    rw [ih hw hknown, ih' (first.lawful hw) (Nat.lt_of_lt_of_le hknown first.nextTask_le),
      sentBy_append, List.append_assoc]
  | @step w w' log h =>
    -- Nothing is remarked of a call but that it is sent.
    have hsame : w'.call? call = w.call? call → sentBy call log = [] →
        (w.call? call).toList = sentBy call log ++ (w'.call? call).toList := by
      intro heq hnone
      rw [heq, hnone, List.nil_append]
    cases h with
    | aside h => exact hsame (call?_congr (find?_congr h.tasks call)) rfl
    | spawn => exact hsame (call?_congr (find?_spawn_other (Nat.ne_of_lt hknown) _)) rfl
    | mount on =>
      exact hsame (call?_congr (find?_spawn_other (w := w.mapRegistry _) (Nat.ne_of_lt hknown) _)) rfl
    | reach there stays =>
      exact hsame ((call?_congr (find?_wake _ _ _)).trans (call?_setTask there stays.plain call)) rfl
    | look there stays => exact hsame (call?_setTask there stays.plain call) rfl
    | own there stays => exact hsame (call?_setTask there stays.plain call) rfl
    | drop holds =>
      obtain ⟨old, there, hs⟩ := holds
      exact hsame ((call?_congr (find?_wake _ _ _)).trans
        (call?_setTask there ⟨Task.call?_eq_none hs, rfl⟩ call)) rfl
    | center there =>
      exact hsame ((call?_congr (find?_wake _ _ _)).trans (call?_setTask there ⟨rfl, rfl⟩ call)) rfl
    | remove there _ plain => exact hsame (call?_remove there plain call) rfl
    | finish holds => exact hsame (call?_finish hw holds call) rfl
    | @call i command notifier there =>
      by_cases hi : i = call
      · subst hi
        have hgone : ((w.sent command).setTask i (.delayed command)).call? i = none := by
          rw [call?_of_find? (find?_setTask_self (w := w.sent command) there _)]
          rfl
        rw [hgone, call?_of_find? there]
        simp [sentBy, Deed.call?, Task.call?]
      · refine hsame (call?_congr (find?_setTask_other (Ne.symm hi) (w.sent command) _)) ?_
        simp [sentBy, Deed.call?, hi]
    | _ => exact hsame rfl rfl

theorem eases_setTask {task' : Task} (there : w.find? i = some old) (eases : old.Eases task)
    (hf : (w.setTask i task).find? id = some task') : ∃ known, w.find? id = some known ∧ known.Eases task' := by
  by_cases hi : id = i
  · subst hi
    rw [find?_setTask_self there] at hf
    obtain rfl : task = task' := Option.some.inj hf
    exact ⟨old, there, eases⟩
  · rw [find?_setTask_other hi] at hf
    exact ⟨task', hf, .refl _⟩

theorem reached_or (hf : (w.setTask i task).find? id = some old) :
    id ∈ ((w.setTask i task).wake i).ready ∨ w.find? id = some old := by
  by_cases hi : id = i
  · exact .inl (hi ▸ mem_ready_wake _ _)
  · exact .inr (find?_setTask_other hi w task ▸ hf)

/-- Whoever is there stands in line, or was there before and has been given nothing urgent to do. -/
theorem Passes.joins (h : w.Passes log w') (hline : .queue ∉ log) (hf : w'.find? id = some task) :
    id ∈ w'.ready ∨ ∃ old, w.find? id = some old ∧ old.Eases task := by
  induction h generalizing task with
  | trans _ second ih ih' =>
    rcases ih' (fun h => hline (List.mem_append_right _ h)) hf with hready | ⟨old', hf', heases'⟩
    · exact .inl hready
    · rcases ih (fun h => hline (List.mem_append_left _ h)) hf' with hready | ⟨old, hf, heases⟩
      · exact .inl ((second.line fun h => hline (List.mem_append_right _ h)).1.subset hready)
      · exact .inr ⟨old, hf, heases.trans heases'⟩
  | @step w w' log h =>
    have hsame : w.find? id = some task → id ∈ w'.ready ∨ ∃ old, w.find? id = some old ∧ old.Eases task :=
      fun hf => .inr ⟨task, hf, .refl task⟩
    cases h with
    | aside h => exact hsame (find?_congr h.tasks id ▸ hf)
    | @spawn new =>
      rcases lookup_spawn_cases w new id with heq | ⟨rfl, -⟩
      · exact hsame (heq ▸ hf)
      · exact .inl (mem_ready_spawn w new)
    | @mount on new =>
      rcases lookup_spawn_cases (w.mapRegistry fun r => (r.subscribe on).2) new id with heq | ⟨rfl, -⟩
      · exact hsame (heq ▸ hf)
      · exact .inl (mem_ready_spawn (w.mapRegistry _) new)
    | reach => exact (reached_or (find?_wake _ _ _ ▸ hf)).imp_right fun hf => ⟨task, hf, .refl task⟩
    | drop => exact (reached_or (find?_wake _ _ _ ▸ hf)).imp_right fun hf => ⟨task, hf, .refl task⟩
    | center => exact (reached_or (find?_wake _ _ _ ▸ hf)).imp_right fun hf => ⟨task, hf, .refl task⟩
    | look there stays _ told => exact .inr (eases_setTask there (stays.eases fun h => told ▸ h) hf)
    | own there stays told => exact .inr (eases_setTask there (stays.eases told) hf)
    | @remove i =>
      rw [find?_remove] at hf
      split at hf
      · cases hf
      · exact hsame hf
    | @finish i =>
      rw [find?_finish] at hf
      split at hf
      · cases hf
      · exact hsame hf
    | @call _ command notifier there =>
      have heases : (Task.command command notifier).Eases (.delayed command) :=
        ⟨fun h => absurd rfl h, fun h => h⟩
      exact .inr (eases_setTask (w := w.sent command) there heases hf)
    | queue => exact absurd (List.mem_singleton_self _) hline
    | _ => exact hsame hf

/-- A call that has not been sent stands in line, or was one before. -/
theorem Passes.joins_call (h : w.Passes log w') (hline : .queue ∉ log) (hcall : w'.call? id ≠ none) :
    id ∈ w'.ready ∨ w.call? id ≠ none := by
  cases hf : w'.find? id with
  | none => exact absurd (by rw [call?, hf, Option.bind_none]) hcall
  | some task =>
    refine (h.joins hline hf).imp_right fun ⟨old, hold, heases⟩ => ?_
    rw [call?_of_find? hf] at hcall
    exact call?_of_find? hold ▸ heases.call hcall

/-- A call is over after its turn. -/
theorem run_call_none (hw : w.Lawful) (id : Nat) : (w.run id).call? id = none := by
  cases hf : w.find? id with
  | none => rw [run_gone hf, call?, hf, Option.bind_none]
  | some task =>
    cases hcall : w.call? id with
    | none =>
      obtain ⟨log, hp, -⟩ := Within.run w id
      have haccount := hp.accounted hw (hw.known hf)
      rw [hcall] at haccount
      exact Option.toList_eq_nil_iff.mp (List.append_eq_nil_iff.mp haccount.symm).2
    | some call =>
      obtain ⟨log, hp, hall, -⟩ := Passes.run_call (find?_of_call? hcall)
      have haccount := hp.accounted hw (hw.known hf)
      -- The turn sends the call and nothing else, which leaves nothing to be sent.
      have hrest : sentBy id log = [] :=
        List.filterMap_eq_nil_iff.mpr fun deed hd => Deed.call?_of_isMessage (hall deed hd)
      simp only [sentBy, List.filterMap_cons, Deed.call?, if_true] at hrest haccount
      rw [hcall, hrest, List.cons_append, List.nil_append] at haccount
      exact Option.toList_eq_nil_iff.mp (List.cons.inj haccount).2.symm

end World

end VoiceAdmin.Timeline
