import VoiceAdmin.Proofs.Delivery.Account
import VoiceAdmin.Proofs.Timeline.Deeds

namespace VoiceAdmin.Timeline.World

open Delivery (Registry Subscription)

variable {w w' : World} {topic : Topic} {id sub : Nat} {log : List Deed}

/-- The task is there. It holds the subscription and listens to the topic, or it was told to stop. -/
def Listens (w : World) (topic : Topic) (id sub : Nat) : Prop :=
  ∃ task, w.find? id = some task ∧ task.subscription? = some sub ∧ ∀ t, task.topic? = some t → t = topic

/-- A task that holds a subscription on a topic, as the only one. -/
structure Running (w : World) (topic : Topic) (id sub : Nat) : Prop where
  known : id < w.nextTask
  made : sub < w.registry.nextId
  only : ∀ e ∈ w.tasks, e.2.subscription? = some sub → e.1 = id
  listens : w.Listens topic id sub
  held : ∃ s, w.registry.find? sub = some s ∧ s.topic = topic ∧ s.held = true ∧ s.releases = 0

/-- A task that held a subscription on a topic and has ended: no task goes on in its name, and the
subscription was given back, once. -/
structure Ended (w : World) (topic : Topic) (id sub : Nat) : Prop where
  known : id < w.nextTask
  made : sub < w.registry.nextId
  still : ∀ e ∈ w.tasks, e.1 ≠ id ∧ e.2.owner? ≠ some id
  free : ∀ e ∈ w.tasks, e.2.subscription? ≠ some sub
  released : ∃ s, w.registry.find? sub = some s ∧ s.topic = topic ∧ s.held = false ∧
    s.senderOpen = false ∧ s.releases = 1

theorem Listens.holds (h : w.Listens topic id sub) : w.Holds id sub := by
  obtain ⟨task, hf, hs, -⟩ := h
  exact ⟨task, hf, hs⟩

theorem Holds.listens (h : w.Holds id sub) : ∃ topic, w.Listens topic id sub := by
  obtain ⟨task, hf, hs⟩ := h
  refine ⟨task.topic?.getD .notification, task, hf, hs, fun t ht => ?_⟩
  rw [ht]
  rfl

/-- A task holds one subscription. -/
theorem Holds.unique {other : Nat} (h : w.Holds id sub) (h' : w.Holds id other) : other = sub := by
  obtain ⟨task, hf, hs⟩ := h
  obtain ⟨task', hf', hs'⟩ := h'
  obtain rfl : task = task' := Option.some.inj (hf.symm.trans hf')
  exact Option.some.inj (hs'.symm.trans hs)

theorem Running.holds (h : w.Running topic id sub) : w.Holds id sub := h.listens.holds

section SetTask

variable {i : Nat} {old task : Task}

theorem only_setTask {P : Nat → Prop} (there : w.find? i = some old)
    (holds : task.subscription? = some sub → old.subscription? = some sub)
    (hp : ∀ e ∈ w.tasks, e.2.subscription? = some sub → P e.1) :
    ∀ e ∈ (w.setTask i task).tasks, e.2.subscription? = some sub → P e.1 := by
  intro e he hs
  rcases mem_setTask he with he | rfl
  · exact hp e he hs
  · exact hp (i, old) (mem_of_find? there) (holds hs)

theorem still_setTask (there : w.find? i = some old) (owner : task.owner? = some id → old.owner? = some id)
    (hstill : ∀ e ∈ w.tasks, e.1 ≠ id ∧ e.2.owner? ≠ some id) :
    ∀ e ∈ (w.setTask i task).tasks, e.1 ≠ id ∧ e.2.owner? ≠ some id := by
  intro e he
  rcases mem_setTask he with he | rfl
  · exact hstill e he
  · obtain ⟨hne, hown⟩ := hstill _ (mem_of_find? there)
    exact ⟨hne, fun howner => hown (owner howner)⟩

theorem Listens.congr (h : w.Listens topic id sub) (heq : w'.find? id = w.find? id) :
    w'.Listens topic id sub := by
  obtain ⟨task, hf, hlistens⟩ := h
  exact ⟨task, heq.trans hf, hlistens⟩

theorem Listens.setTask (h : w.Listens topic id sub) (there : w.find? i = some old)
    (holds : task.subscription? = old.subscription?)
    (listens : ∀ t, task.topic? = some t → old.topic? = some t) :
    (w.setTask i task).Listens topic id sub := by
  obtain ⟨known, hf, hs, ht⟩ := h
  by_cases hi : id = i
  · subst hi
    obtain rfl : old = known := Option.some.inj (there.symm.trans hf)
    exact ⟨task, find?_setTask_self there task, holds.trans hs, fun t h => ht t (listens t h)⟩
  · exact ⟨known, (find?_setTask_other hi w task).trans hf, hs, ht⟩

end SetTask

/-- What was given back is not given back again. -/
theorem find?_release {r : Registry} {s : Subscription} (hf : r.find? sub = some s) (hgiven : s.held = false) :
    ∃ s', (r.release sub).find? sub = some s' ∧ s.Continues s' := by
  have hsame : s.release = s := by simp [Subscription.release, hgiven]
  refine ⟨s.release.close, ?_, hsame.symm ▸ .close s⟩
  rw [Registry.release, Registry.find?_update, hf]
  rfl

namespace Passes

/-- Nobody else comes to hold a subscription that was made before. -/
theorem only {P : Nat → Prop} (h : w.Passes log w') (hmade : sub < w.registry.nextId)
    (hp : ∀ e ∈ w.tasks, e.2.subscription? = some sub → P e.1) :
    ∀ e ∈ w'.tasks, e.2.subscription? = some sub → P e.1 := by
  induction h with
  | trans first _ ih ih' => exact ih' (Nat.lt_of_lt_of_le hmade first.nextId_le) (ih hmade hp)
  | @step w w' log h =>
    cases h with
    | aside h => exact h.tasks ▸ hp
    | spawn free =>
      intro e he hs
      rcases mem_spawn he with he | rfl
      · exact hp e he hs
      · rw [free] at hs
        cases hs
    | mount topic holds =>
      intro e he hs
      rcases mem_spawn he with he | rfl
      · exact hp e he hs
      · rw [holds] at hs
        exact absurd (Option.some.inj hs) (Nat.ne_of_gt hmade)
    | reach there stays =>
      rw [wake_tasks]
      exact only_setTask there (fun hs => stays.subscription ▸ hs) hp
    | look there stays => exact only_setTask there (fun hs => stays.subscription ▸ hs) hp
    | own there stays => exact only_setTask there (fun hs => stays.subscription ▸ hs) hp
    | drop holds =>
      obtain ⟨old, there, hold⟩ := holds
      rw [wake_tasks]
      exact only_setTask there (fun hs => hold.trans hs) hp
    | center there =>
      rw [wake_tasks]
      refine only_setTask there ?_ hp
      exact id
    | remove => exact fun e he => hp e (List.mem_filter.mp he).1
    | finish => exact fun e he => hp e (mem_finish he).1
    | call there => exact only_setTask there nofun hp
    | _ => exact hp

/-- Nobody starts to work for a task that is no longer there. -/
theorem still (h : w.Passes log w') (hknown : id < w.nextTask)
    (hstill : ∀ e ∈ w.tasks, e.1 ≠ id ∧ e.2.owner? ≠ some id) :
    ∀ e ∈ w'.tasks, e.1 ≠ id ∧ e.2.owner? ≠ some id := by
  induction h with
  | trans first _ ih ih' => exact ih' (Nat.lt_of_lt_of_le hknown first.nextTask_le) (ih hknown hstill)
  | @step w w' log h =>
    cases h with
    | aside h => exact h.tasks ▸ hstill
    | spawn free owned =>
      intro e he
      rcases mem_spawn he with he | rfl
      · exact hstill e he
      · refine ⟨Nat.ne_of_gt hknown, fun howner => ?_⟩
        obtain ⟨known, hf⟩ := owned id howner
        exact (hstill _ (mem_of_find? hf)).1 rfl
    | mount topic holds =>
      intro e he
      rcases mem_spawn he with he | rfl
      · exact hstill e he
      · refine ⟨Nat.ne_of_gt hknown, fun howner => ?_⟩
        rw [Task.owner?_eq_none holds] at howner
        cases howner
    | reach there stays =>
      rw [wake_tasks]
      exact still_setTask there (fun ho => stays.owner ▸ ho) hstill
    | look there stays => exact still_setTask there (fun ho => stays.owner ▸ ho) hstill
    | own there stays => exact still_setTask there (fun ho => stays.owner ▸ ho) hstill
    | drop holds =>
      obtain ⟨old, there, -⟩ := holds
      rw [wake_tasks]
      exact still_setTask there nofun hstill
    | center there =>
      rw [wake_tasks]
      exact still_setTask there nofun hstill
    | remove => exact fun e he => hstill e (List.mem_filter.mp he).1
    | finish => exact fun e he => hstill e (mem_finish he).1
    | call there => exact still_setTask there nofun hstill
    | _ => exact hstill

/-- Who listens to a topic goes on with it until it is finished. -/
theorem listens (h : w.Passes log w') (hw : w.Lawful) (hl : w.Listens topic id sub)
    (hgoes : .finish id sub ∉ log) : w'.Listens topic id sub := by
  induction h with
  | trans first _ ih ih' =>
    exact ih' (first.lawful hw) (ih hw hl fun h => hgoes (List.mem_append_left _ h))
      fun h => hgoes (List.mem_append_right _ h)
  | @step w w' log h =>
    cases h with
    | aside h => exact hl.congr (find?_congr h.tasks id)
    | spawn =>
      obtain ⟨task, hf, hl⟩ := hl
      exact ⟨task, find?_spawn_known hf _, hl⟩
    | mount on =>
      obtain ⟨task, hf, hl⟩ := hl
      have hf : (w.mapRegistry fun r => (r.subscribe on).2).find? id = some task := hf
      exact ⟨task, find?_spawn_known hf _, hl⟩
    | reach there stays =>
      exact (hl.setTask there stays.subscription fun _ ht => stays.topic ▸ ht).congr (find?_wake _ _ _)
    | look there stays => exact hl.setTask there stays.subscription fun _ ht => stays.topic ▸ ht
    | own there stays => exact hl.setTask there stays.subscription fun _ ht => stays.topic ▸ ht
    | @drop i s holds =>
      obtain ⟨old, there, hs⟩ := holds
      have hdropped : (w.setTask i (.dropped s)).Listens topic id sub := hl.setTask there hs.symm nofun
      exact hdropped.congr (find?_wake _ _ _)
    | @center i c there message =>
      have htold : (w.setTask i (.center { c with messages := c.messages ++ [message] })).Listens topic id sub :=
        hl.setTask there rfl fun _ ht => ht
      exact htold.congr (find?_wake _ _ _)
    | @remove i old there free =>
      obtain ⟨task, hf, hs, ht⟩ := hl
      have hi : id ≠ i := by
        rintro rfl
        obtain rfl : old = task := Option.some.inj (there.symm.trans hf)
        rw [free] at hs
        cases hs
      exact ⟨task, by rw [find?_remove, if_neg hi, hf], hs, ht⟩
    | @finish i s holds =>
      have hi : id ≠ i := by
        rintro rfl
        exact hgoes (hl.holds.unique holds ▸ List.mem_singleton_self _)
      obtain ⟨task, hf, hs, ht⟩ := hl
      exact ⟨task, hw.find?_finish_other hf (Task.owner?_eq_none hs) hi s, hs, ht⟩
    | @call i command notifier there =>
      obtain ⟨task, hf, hs, ht⟩ := hl
      have hi : id ≠ i := by
        rintro rfl
        cases there.symm.trans hf
        cases hs
      exact ⟨task, (find?_setTask_other hi _ _).trans hf, hs, ht⟩
    | _ => exact hl

/-- Only the end of its holder gives a subscription back, and what was given back is not given back
again. -/
theorem find? {s : Subscription} (h : w.Passes log w') (hw : w.Lawful) (hf : w.registry.find? sub = some s)
    (hkept : s.held = false ∨ ∃ id, w.Holds id sub ∧ ∀ i, .finish i sub ∉ log) :
    ∃ s', w'.registry.find? sub = some s' ∧ s.Continues s' := by
  induction h generalizing s with
  | trans first _ ih ih' =>
    obtain ⟨s', hf', hs⟩ := ih hw hf (hkept.imp_right fun ⟨id, hh, hgoes⟩ =>
      ⟨id, hh, fun i hi => hgoes i (List.mem_append_left _ hi)⟩)
    obtain ⟨s'', hf'', hs'⟩ := ih' (first.lawful hw) hf' (hkept.imp hs.held.trans fun ⟨id, hh, hgoes⟩ => by
      obtain ⟨topic, hl⟩ := hh.listens
      have hl := first.listens hw hl fun h => hgoes id (List.mem_append_left _ h)
      exact ⟨id, hl.holds, fun i hi => hgoes i (List.mem_append_right _ hi)⟩)
    exact ⟨s'', hf'', hs.trans hs'⟩
  | @step w w' log h =>
    cases h with
    | aside h => exact h.registry.find? hf
    | spawn => exact ⟨s, by rw [spawn_registry]; exact hf, .refl s⟩
    | mount topic =>
      refine ⟨s, ?_, .refl s⟩
      rw [spawn_registry]
      exact Registry.find?_subscribe_known hf topic
    | reach => exact ⟨s, by rw [registry, wake_wire]; exact hf, .refl s⟩
    | drop => exact ⟨s, by rw [registry, wake_wire]; exact hf, .refl s⟩
    | center => exact ⟨s, by rw [registry, wake_wire]; exact hf, .refl s⟩
    | @unsubscribe other free =>
      by_cases hother : other = sub
      · subst hother
        rcases hkept with hgiven | ⟨id, ⟨task, hfind, hholds⟩, -⟩
        · exact find?_release hf hgiven
        · exact absurd hholds (free _ (mem_of_find? hfind))
      · exact ⟨s, (Registry.find?_update_other hother _).trans hf, .refl s⟩
    | @finish i other =>
      rw [finish_registry]
      by_cases hother : other = sub
      · subst hother
        rcases hkept with hgiven | ⟨-, -, hgoes⟩
        · exact find?_release hf hgiven
        · exact absurd (List.mem_singleton_self _) (hgoes i)
      · exact ⟨s, (Registry.find?_update_other hother _).trans hf, .refl s⟩
    | _ => exact ⟨s, hf, .refl s⟩

theorem ended (h : w.Passes log w') (hw : w.Lawful) (he : w.Ended topic id sub) :
    w'.Ended topic id sub where
  known := Nat.lt_of_lt_of_le he.known h.nextTask_le
  made := Nat.lt_of_lt_of_le he.made h.nextId_le
  still := h.still he.known he.still
  free := h.only (P := fun _ => False) he.made he.free
  released := by
    obtain ⟨s, hf, ht, hheld, hopen, hreleases⟩ := he.released
    obtain ⟨s', hf', hs⟩ := h.find? hw hf (.inl hheld)
    exact ⟨s', hf', hs.topic.trans ht, hs.held.trans hheld, hs.closed hopen, hs.releases.trans hreleases⟩

end Passes

/-- The end of a holder gives back its subscription. -/
theorem Running.finish (h : w.Running topic id sub) : (w.finish id sub).Ended topic id sub where
  known := finish_nextTask w id sub ▸ h.known
  made := finish_registry w id sub ▸ h.made
  still e hm := (mem_finish hm).2
  free e hm hs := (mem_finish hm).2.1 (h.only e (mem_finish hm).1 hs)
  released := by
    obtain ⟨s, hf, ht, hheld, hreleases⟩ := h.held
    refine ⟨s.release.close, ?_, ?_⟩
    · rw [finish_registry, Registry.release, Registry.find?_update, hf]
      rfl
    · simp [Subscription.release, Subscription.close, hheld, ht, hreleases]

/-- A holder goes on until it is finished, -/
theorem Passes.running_of_goes (h : w.Passes log w') (hw : w.Lawful) (hr : w.Running topic id sub)
    (hgoes : ∀ i, .finish i sub ∉ log) : w'.Running topic id sub where
  known := Nat.lt_of_lt_of_le hr.known h.nextTask_le
  made := Nat.lt_of_lt_of_le hr.made h.nextId_le
  only := h.only (P := fun i => i = id) hr.made hr.only
  listens := h.listens hw hr.listens (hgoes id)
  held := by
    obtain ⟨s, hf, ht, hheld, hreleases⟩ := hr.held
    obtain ⟨s', hf', hs⟩ := h.find? hw hf (.inr ⟨id, hr.holds, hgoes⟩)
    exact ⟨s', hf', hs.topic.trans ht, hs.held.trans hheld, hs.releases.trans hreleases⟩

/-- and its end gives the subscription back. -/
theorem Passes.running (h : w.Passes log w') (hw : w.Lawful) (hr : w.Running topic id sub) :
    w'.Running topic id sub ∨ w'.Ended topic id sub := by
  induction h with
  | trans first second ih ih' =>
    rcases ih hw hr with hr | he
    · exact ih' (first.lawful hw) hr
    · exact .inr (second.ended (first.lawful hw) he)
  | @step w w' log h =>
    by_cases hgoes : ∀ i, .finish i sub ∉ log
    · exact .inl ((Passes.step h).running_of_goes hw hr hgoes)
    · obtain ⟨i, hi⟩ := not_forall_not.mp hgoes
      cases h with
      | @finish other s holds =>
        obtain ⟨rfl, rfl⟩ : other = i ∧ s = sub := by simpa [eq_comm] using hi
        obtain ⟨task, hf, hs⟩ := holds
        obtain rfl : other = id := hr.only _ (mem_of_find? hf) hs
        exact .inr hr.finish
      | _ => simp at hi

/-- What was given back is registered nowhere. -/
theorem Ended.not_registered (h : w.Ended topic id sub) (hw : w.Lawful) (other : Topic) :
    sub ∉ w.registry.registered other := by
  intro hm
  obtain ⟨m, hmember, rfl⟩ := List.mem_map.mp hm
  obtain ⟨hm, hon⟩ : m ∈ w.registry.members ∧ Registry.registeredOn other m = true :=
    List.mem_filter.mp hmember
  obtain ⟨s, hf, -, -, hopen, -⟩ := h.released
  obtain rfl : m.subscription = s :=
    Option.some.inj ((Registry.find?_of_mem hw.registry.distinct hm).symm.trans hf)
  simp [Registry.registeredOn, hopen] at hon

/-- A task that was running and is no longer there has ended. -/
theorem ended_of_gone (h : w.Running topic id sub ∨ w.Ended topic id sub) (hgone : w.find? id = none) :
    w.Ended topic id sub := by
  rcases h with hr | he
  · obtain ⟨task, hf, -⟩ := hr.holds
    rw [hgone] at hf
    cases hf
  · exact he

theorem Ended.gone (h : w.Ended topic id sub) : w.find? id = none :=
  find?_eq_none.mpr fun e he => (h.still e he).1

end VoiceAdmin.Timeline.World
