import VoiceAdmin.Proofs.Delivery.Continuity
import VoiceAdmin.Timeline.Run

namespace VoiceAdmin.Timeline

open Delivery (Registry)

namespace Task

/-- The subscription that a task gives back when it is finished. -/
def subscription? : Task → Option Nat
  | .session _ task => some task.subscription
  | .center task => some task.subscription
  | .dropped subscription => some subscription
  | _ => none

/-- The topic that a task listens to. -/
def topic? : Task → Option Topic
  | .session d _ => some d.topic
  | .center _ => some .notification
  | _ => none

/-- The session that a pull is for. -/
def owner? : Task → Option Nat
  | .pull _ owner _ => some owner
  | .answer _ owner _ => some owner
  | _ => none

/-- What is to be sent, and where a failure is to be announced. -/
def call? : Task → Option (Command × Notifier)
  | .command sent notifier => some (sent, notifier)
  | _ => none

/-- The messages that wait for a task. -/
def inbox : Task → List Alerts.Message
  | .center task => task.messages
  | _ => []

/-- Whether a task was told to stop. -/
def told : Task → Bool
  | .session _ task => task.controls.contains .unmount
  | .center task => task.messages.contains .shutdown
  | .dropped _ => true
  | _ => false

variable {task : Task} {sub : Nat}

theorem owner?_eq_none (h : task.subscription? = some sub) : task.owner? = none := by
  cases task with
  | pull _ _ _ => cases h
  | answer _ _ _ => cases h
  | _ => rfl

theorem call?_eq_none (h : task.subscription? = some sub) : task.call? = none := by
  cases task with
  | command _ _ => cases h
  | _ => rfl

theorem told_eq_false (h : task.subscription? = none) : task.told = false := by
  cases task with
  | session _ _ => cases h
  | center _ => cases h
  | dropped _ => cases h
  | _ => rfl

theorem inbox_eq_nil (h : task.subscription? = none) : task.inbox = [] := by
  cases task with
  | center _ => cases h
  | _ => rfl

end Task

namespace World

variable {w : World} {id i sub : Nat} {task : Task}

abbrev registry (w : World) : Registry := w.wire.server.registry

theorem mem_of_find? (h : w.find? id = some task) : (id, task) ∈ w.tasks := by
  obtain ⟨before, after, htasks, -⟩ := List.lookup_eq_some_iff.mp h
  rw [htasks]
  exact List.mem_append_right _ List.mem_cons_self

theorem find?_eq_none : w.find? id = none ↔ ∀ e ∈ w.tasks, e.1 ≠ id := by
  rw [find?, List.lookup_eq_none_iff]
  refine forall₂_congr fun e _ => ?_
  rw [bne_iff_ne, ne_comm]

theorem find?_congr {v : World} (h : v.tasks = w.tasks) (id : Nat) : v.find? id = w.find? id := by
  rw [find?, find?, h]

theorem find?_setTask (w : World) (i : Nat) (task : Task) (id : Nat) :
    (w.setTask i task).find? id = if id = i then (w.find? id).map fun _ => task else w.find? id := by
  show (w.tasks.map fun e => if e.1 = i then (i, task) else e).lookup id =
    if id = i then (w.tasks.lookup id).map fun _ => task else w.tasks.lookup id
  induction w.tasks with
  | nil => simp
  | cons e rest ih =>
    obtain ⟨key, old⟩ := e
    rw [List.map_cons]
    by_cases he : key = i
    · rw [if_pos he, List.lookup_cons, List.lookup_cons, ih, he]
      by_cases hid : id = i
      · simp [hid]
      · simp [hid, beq_false_of_ne hid]
    · rw [if_neg he, List.lookup_cons, List.lookup_cons, ih]
      by_cases hid : id = key
      · simp [hid, he]
      · simp [beq_false_of_ne hid]

theorem find?_setTask_self {old : Task} (h : w.find? id = some old) (task : Task) :
    (w.setTask id task).find? id = some task := by
  rw [find?_setTask, if_pos rfl, h]
  rfl

theorem find?_setTask_other (h : id ≠ i) (w : World) (task : Task) :
    (w.setTask i task).find? id = w.find? id := by
  rw [find?_setTask, if_neg h]

@[simp] theorem setTask_nextTask (w : World) (id : Nat) (task : Task) :
    (w.setTask id task).nextTask = w.nextTask := rfl

@[simp] theorem setTask_wire (w : World) (id : Nat) (task : Task) : (w.setTask id task).wire = w.wire := rfl

/-- Any number of tasks that end at once. -/
def without (w : World) (ids : List Nat) : World :=
  { w with
    tasks := w.tasks.filter fun e => e.1 ∉ ids
    alarms := w.alarms.filter fun a => a.task ∉ ids }

theorem remove_eq (w : World) (id : Nat) : w.remove id = w.without [id] := by
  simp [remove, clearAlarm, without]

theorem foldl_remove (ids : List Nat) (w : World) : ids.foldl remove w = w.without ids := by
  induction ids generalizing w with
  | nil => simp [without]
  | cons i ids ih =>
    rw [List.foldl_cons, ih]
    simp only [without, remove, clearAlarm, List.filter_filter, List.mem_cons, not_or,
      Bool.decide_and, Bool.and_comm]

theorem find?_without (w : World) (ids : List Nat) (id : Nat) :
    (w.without ids).find? id = if id ∈ ids then none else w.find? id := by
  show (w.tasks.filter fun e => e.1 ∉ ids).lookup id = if id ∈ ids then none else w.tasks.lookup id
  induction w.tasks with
  | nil => simp
  | cons e rest ih =>
    obtain ⟨key, old⟩ := e
    by_cases he : key ∈ ids
    · rw [List.filter_cons_of_neg (by simpa using he), ih, List.lookup_cons]
      by_cases hid : id = key
      · simp [hid, he]
      · simp [beq_false_of_ne hid]
    · rw [List.filter_cons_of_pos (by simpa using he), List.lookup_cons, List.lookup_cons, ih]
      by_cases hid : id = key
      · simp [hid, he]
      · simp [beq_false_of_ne hid]

theorem find?_remove (w : World) (i id : Nat) :
    (w.remove i).find? id = if id = i then none else w.find? id := by
  simp only [remove_eq, find?_without, List.mem_singleton]

@[simp] theorem wake_tasks (w : World) (id : Nat) : (w.wake id).tasks = w.tasks := by
  unfold wake
  split <;> rfl

@[simp] theorem wake_nextTask (w : World) (id : Nat) : (w.wake id).nextTask = w.nextTask := by
  unfold wake
  split <;> rfl

@[simp] theorem wake_wire (w : World) (id : Nat) : (w.wake id).wire = w.wire := by
  unfold wake
  split <;> rfl

theorem find?_wake (w : World) (i id : Nat) : (w.wake i).find? id = w.find? id :=
  find?_congr (wake_tasks w i) id

theorem mem_ready_wake (w : World) (id : Nat) : id ∈ (w.wake id).ready := by
  unfold wake
  split
  · simpa using ‹w.ready.contains id = true›
  · exact List.mem_append_right _ (List.mem_singleton_self _)

@[simp] theorem spawn_tasks (w : World) (task : Task) :
    (w.spawn task).2.tasks = w.tasks ++ [(w.nextTask, task)] := by
  rw [spawn, wake_tasks]

@[simp] theorem spawn_nextTask (w : World) (task : Task) :
    (w.spawn task).2.nextTask = w.nextTask + 1 := by
  rw [spawn, wake_nextTask]

@[simp] theorem spawn_wire (w : World) (task : Task) : (w.spawn task).2.wire = w.wire := by
  rw [spawn, wake_wire]

@[simp] theorem spawn_registry (w : World) (task : Task) : (w.spawn task).2.registry = w.registry := by
  rw [registry, spawn_wire]

theorem mem_ready_spawn (w : World) (task : Task) : w.nextTask ∈ (w.spawn task).2.ready :=
  mem_ready_wake _ _

theorem find?_spawn_known {known : Task} (h : w.find? id = some known) (task : Task) :
    (w.spawn task).2.find? id = some known := by
  rw [find?, spawn_tasks, List.lookup_append]
  exact Option.or_eq_some_iff.mpr (.inl h)

theorem find?_spawn_other (h : id ≠ w.nextTask) (task : Task) :
    (w.spawn task).2.find? id = w.find? id := by
  have hlookup : [(w.nextTask, task)].lookup id = none := by
    simp [List.lookup_cons, beq_false_of_ne h]
  rw [find?, find?, spawn_tasks, List.lookup_append, hlookup, Option.or_none]

theorem find?_spawn_new (h : ∀ e ∈ w.tasks, e.1 < w.nextTask) (task : Task) :
    (w.spawn task).2.find? w.nextTask = some task := by
  have hnone : w.tasks.lookup w.nextTask = none :=
    find?_eq_none.mpr fun e he => Nat.ne_of_lt (h e he)
  rw [find?, spawn_tasks, List.lookup_append, hnone]
  simp

theorem mem_setTask {e : Nat × Task} (h : e ∈ (w.setTask i task).tasks) :
    e ∈ w.tasks ∨ e = (i, task) := by
  obtain ⟨e', he', rfl⟩ := List.mem_map.mp h
  split
  · exact .inr rfl
  · exact .inl he'

theorem mem_spawn {e : Nat × Task} (h : e ∈ (w.spawn task).2.tasks) :
    e ∈ w.tasks ∨ e = (w.nextTask, task) := by
  rwa [spawn_tasks, List.mem_append, List.mem_singleton] at h

/-- The tasks that a task started for its pulls. -/
def pullsOf (w : World) (owner : Nat) : List Nat :=
  (w.tasks.filter fun e => e.2.owner? = some owner).map Prod.fst

theorem cancelPulls_eq (w : World) (owner : Nat) :
    w.cancelPulls owner = w.without (w.pullsOf owner) := by
  rw [← foldl_remove]
  refine congrArg (List.foldl remove w) (?_ : List.filterMap _ w.tasks = w.pullsOf owner)
  unfold pullsOf
  induction w.tasks with
  | nil => rfl
  | cons e rest ih =>
    obtain ⟨id, task⟩ := e
    rw [List.filterMap_cons, ih]
    cases task with
    | pull d o _ => by_cases ho : o = owner <;> simp [Task.owner?, ho]
    | answer d o _ => by_cases ho : o = owner <;> simp [Task.owner?, ho]
    | _ => simp [Task.owner?]

/-- A task that is finished ends with its pulls, and its subscription is given back. -/
theorem finish_eq (w : World) (id sub : Nat) :
    w.finish id sub = (w.without (id :: w.pullsOf id)).release sub := by
  rw [finish, cancelPulls_eq]
  simp only [without, release, mapRegistry, mapServer, remove, clearAlarm, List.filter_filter,
    List.mem_cons, not_or, Bool.decide_and]

theorem find?_finish (w : World) (i other id : Nat) :
    (w.finish i other).find? id = if id = i ∨ id ∈ w.pullsOf i then none else w.find? id := by
  rw [finish_eq]
  show (w.without (i :: w.pullsOf i)).find? id = _
  simp only [find?_without, List.mem_cons]

theorem find?_finish_self (w : World) (id sub : Nat) : (w.finish id sub).find? id = none := by
  rw [find?_finish, if_pos (.inl rfl)]

/-- With a task its pulls end. -/
theorem mem_finish {e : Nat × Task} (h : e ∈ (w.finish id sub).tasks) :
    e ∈ w.tasks ∧ e.1 ≠ id ∧ e.2.owner? ≠ some id := by
  rw [finish_eq] at h
  obtain ⟨hm, hout⟩ : e ∈ w.tasks ∧ e.1 ∉ id :: w.pullsOf id := by
    simpa [release, mapRegistry, mapServer, without] using h
  rw [List.mem_cons, not_or] at hout
  refine ⟨hm, hout.1, fun howner => hout.2 ?_⟩
  exact List.mem_map_of_mem (List.mem_filter.mpr ⟨hm, by simpa using howner⟩)

theorem finish_registry (w : World) (id sub : Nat) :
    (w.finish id sub).registry = w.registry.release sub := by
  rw [finish_eq]
  rfl

@[simp] theorem finish_nextTask (w : World) (id sub : Nat) : (w.finish id sub).nextTask = w.nextTask := by
  rw [finish_eq]
  rfl

end World

end VoiceAdmin.Timeline
