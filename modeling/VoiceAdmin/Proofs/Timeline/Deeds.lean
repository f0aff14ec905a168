import VoiceAdmin.Proofs.Timeline.Tasks

namespace VoiceAdmin.Timeline

open Delivery (Registry)

/-- What is remarkable of what happens. -/
inductive Deed where
  | fetch (d : Domain)
  /-- A call is sent. -/
  | call (id : Nat) (command : Command) (notifier : Notifier)
  /-- Somebody else passes a command on. -/
  | beside (command : Command)
  /-- A message comes to a center, or to the list. -/
  | message (notifier : Notifier) (message : Alerts.Message)
  /-- A task gets on with its own work. -/
  | own (id : Nat)
  /-- A session or a center is told to stop where it is. -/
  | drop (id : Nat)
  | finish (id sub : Nat)
  /-- The clock moves on. -/
  | clock
  /-- The line of those that can go on is taken up by the one who gives the turns. -/
  | queue

namespace Deed

/-- Whether it may happen in the turn of a task that is neither a pull nor a call. -/
def Works (id : Nat) : Deed → Prop
  | .message _ _ => True
  | .own i => i = id
  | .finish i _ => i = id
  | _ => False

/-- Whether it may happen in the turn of a task. -/
def By (id : Nat) : Deed → Prop
  | .fetch _ => True
  | .call i _ _ => i = id
  | deed => deed.Works id

/-- Whether it may happen while no task has its turn. -/
def Outside : Deed → Prop
  | .fetch _ => True
  | .beside _ => True
  | .message _ _ => True
  | .drop _ => True
  | .clock => True
  | _ => False

def IsMessage : Deed → Prop
  | .message _ _ => True
  | _ => False

def command? : Deed → Option Command
  | .call _ command _ => some command
  | .beside command => some command
  | _ => none

def call? (id : Nat) : Deed → Option (Command × Notifier)
  | .call i command notifier => if i = id then some (command, notifier) else none
  | _ => none

variable {id : Nat} {deed : Deed}

theorem works_of_isMessage (h : deed.IsMessage) : deed.Works id := by
  cases deed with
  | message _ _ => trivial
  | _ => cases h

theorem command?_of_isMessage (h : deed.IsMessage) : deed.command? = none := by
  cases deed with
  | message _ _ => rfl
  | _ => cases h

theorem call?_of_isMessage (h : deed.IsMessage) : deed.call? id = none := by
  cases deed with
  | message _ _ => rfl
  | _ => cases h

theorem outside_of_isMessage (h : deed.IsMessage) : deed.Outside := by
  cases deed with
  | message _ _ => trivial
  | _ => cases h

theorem by_of_works (h : deed.Works id) : deed.By id := by
  cases deed with
  | fetch _ => trivial
  | call _ _ _ => cases h
  | _ => exact h

end Deed

/-- What was sent for one call. -/
def sentBy (id : Nat) (log : List Deed) : List (Command × Notifier) := log.filterMap (Deed.call? id)

theorem sentBy_append (id : Nat) (log log' : List Deed) :
    sentBy id (log ++ log') = sentBy id log ++ sentBy id log' := List.filterMap_append

/-- A task that goes on is what it was to others. -/
structure Task.Stays (old task : Task) : Prop where
  subscription : task.subscription? = old.subscription?
  topic : task.topic? = old.topic?
  owner : task.owner? = old.owner?
  plain : old.call? = none ∧ task.call? = none

namespace World

variable {w w' w'' : World} {id i sub : Nat} {task : Task} {log : List Deed}

/-- Something happens to no task. Nobody loses his place in line. -/
structure Aside (w w' : World) : Prop where
  now : w'.now = w.now
  tasks : w'.tasks = w.tasks
  nextTask : w'.nextTask = w.nextTask
  ready : w.ready <+: w'.ready
  deferred : w.deferred <+: w'.deferred
  unshown : w'.unshown = w.unshown
  fetches : w'.wire.fetches = w.wire.fetches
  commands : w'.wire.commands = w.wire.commands
  registry : w.registry.Continues w'.registry

/-- The task is there, and it is to give the subscription back. -/
def Holds (w : World) (id sub : Nat) : Prop :=
  ∃ task, w.find? id = some task ∧ task.subscription? = some sub

/-- A command was passed on. -/
def sent (w : World) (command : Command) : World :=
  { w with wire.commands := w.wire.commands ++ [command] }

/-- One thing that can happen in a world, with what is remarkable of it. -/
inductive Happens : World → List Deed → World → Prop where
  | aside {w w' : World} (h : w.Aside w') : Happens w [] w'
  /-- A task starts that holds nothing; if it is a pull, the one for which it is made is there. -/
  | spawn (w : World) {task : Task} (free : task.subscription? = none)
      (owned : ∀ owner, task.owner? = some owner → ∃ known, w.find? owner = some known) :
      Happens w [] (w.spawn task).2
  /-- A task starts with a new subscription. -/
  | mount (w : World) (topic : Topic) {task : Task} (holds : task.subscription? = some w.registry.nextId)
      (empty : task.inbox = []) (fresh : task.told = false) :
      Happens w [] ((w.mapRegistry fun r => (r.subscribe topic).2).spawn task).2
  /-- A task is given something and can go on. -/
  | reach {w : World} {id : Nat} {old task : Task} (there : w.find? id = some old) (stays : old.Stays task)
      (inbox : task.inbox = old.inbox) (told : old.told = true → task.told = true) :
      Happens w [] ((w.setTask id task).wake id)
  | look {w : World} {id : Nat} {old task : Task} (there : w.find? id = some old) (stays : old.Stays task)
      (inbox : task.inbox = old.inbox) (told : task.told = old.told) : Happens w [] (w.setTask id task)
  | own {w : World} {id : Nat} {old task : Task} (there : w.find? id = some old) (stays : old.Stays task)
      (told : task.told = true → old.told = true) : Happens w [.own id] (w.setTask id task)
  | drop {w : World} {id sub : Nat} (holds : w.Holds id sub) :
      Happens w [.drop id] ((w.setTask id (.dropped sub)).wake id)
  | list (w : World) (message : Alerts.Message) :
      Happens w [.message .list message] { w with unshown := w.unshown ++ [message] }
  | center {w : World} {id : Nat} {task : CenterTask} (there : w.find? id = some (.center task))
      (message : Alerts.Message) :
      Happens w [.message (.center id) message]
        ((w.setTask id (.center { task with messages := task.messages ++ [message] })).wake id)
  | remove {w : World} {id : Nat} {task : Task} (there : w.find? id = some task)
      (free : task.subscription? = none) (plain : task.call? = none) : Happens w [] (w.remove id)
  /-- A subscription is given back that no task holds. -/
  | unsubscribe {w : World} {sub : Nat} (free : ∀ e ∈ w.tasks, e.2.subscription? ≠ some sub) :
      Happens w [] (w.release sub)
  | finish {w : World} {id sub : Nat} (holds : w.Holds id sub) : Happens w [.finish id sub] (w.finish id sub)
  | fetch (w : World) (d : Domain) :
      Happens w [.fetch d] { w with wire.fetches := d :: w.wire.fetches }
  | beside (w : World) (command : Command) : Happens w [.beside command] (w.sent command)
  | call {w : World} {id : Nat} {command : Command} {notifier : Notifier}
      (there : w.find? id = some (.command command notifier)) :
      Happens w [.call id command notifier] ((w.sent command).setTask id (.delayed command))
  | clock (w : World) (now : Nat) (alarms : List Alarm) : Happens w [.clock] { w with now, alarms }
  | queue (w : World) (ready deferred : List Nat) : Happens w [.queue] { w with ready, deferred }

/-- What happens, one thing after another. -/
inductive Passes : World → List Deed → World → Prop where
  | step {w w' : World} {log : List Deed} (h : Happens w log w') : Passes w log w'
  | trans {w w' w'' : World} {log log' : List Deed} (first : Passes w log w') (second : Passes w' log' w'') :
      Passes w (log ++ log') w''

namespace Aside

theorem refl (w : World) : w.Aside w :=
  ⟨rfl, rfl, rfl, List.prefix_refl _, List.prefix_refl _, rfl, rfl, rfl, .refl _⟩

theorem trans (h : w.Aside w') (h' : w'.Aside w'') : w.Aside w'' where
  now := h'.now.trans h.now
  tasks := h'.tasks.trans h.tasks
  nextTask := h'.nextTask.trans h.nextTask
  ready := h.ready.trans h'.ready
  deferred := h.deferred.trans h'.deferred
  unshown := h'.unshown.trans h.unshown
  fetches := h'.fetches.trans h.fetches
  commands := h'.commands.trans h.commands
  registry := h.registry.trans h'.registry

theorem foldl {α : Type} {f : World → α → World} (h : ∀ (w : World) (a : α), w.Aside (f w a))
    (list : List α) (w : World) : w.Aside (list.foldl f w) := by
  induction list generalizing w with
  | nil => exact refl w
  | cons a list ih => exact (h w a).trans (ih _)

theorem wake (w : World) (id : Nat) : w.Aside (w.wake id) := by
  unfold World.wake
  split
  · exact refl w
  · exact { refl w with ready := List.prefix_append _ _ }

end Aside

theorem wake_line (v : World) (id : Nat) (ready : v.ready = w.ready) (deferred : v.deferred = w.deferred) :
    w.ready <+: (v.wake id).ready ∧ w.deferred <+: (v.wake id).deferred :=
  ⟨ready ▸ (Aside.wake v id).ready, deferred ▸ (Aside.wake v id).deferred⟩

/-- How a new task comes to the end of the table. -/
theorem lookup_spawn_cases (w : World) (task : Task) (id : Nat) :
    (w.spawn task).2.find? id = w.find? id ∨ id = w.nextTask ∧ (w.spawn task).2.find? id = some task := by
  by_cases hid : id = w.nextTask
  · rw [find?, spawn_tasks, List.lookup_append]
    cases hf : w.tasks.lookup id with
    | none => exact .inr ⟨hid, by simp [hid]⟩
    | some known => exact .inl (by rw [find?, hf]; rfl)
  · exact .inl (find?_spawn_other hid task)

namespace Passes

theorem nextTask_le (h : w.Passes log w') : w.nextTask ≤ w'.nextTask := by
  induction h with
  | trans _ _ first second => exact Nat.le_trans first second
  | @step w w' log h =>
    cases h with
    | aside h => exact Nat.le_of_eq h.nextTask.symm
    | spawn => exact spawn_nextTask w _ ▸ Nat.le_succ _
    | mount => exact spawn_nextTask (w.mapRegistry _) _ ▸ Nat.le_succ _
    | reach => simp
    | drop => simp
    | center => simp
    | finish => simp
    | _ => exact Nat.le_refl _

theorem nextId_le (h : w.Passes log w') : w.registry.nextId ≤ w'.registry.nextId := by
  induction h with
  | trans _ _ first second => exact Nat.le_trans first second
  | @step w w' log h =>
    cases h with
    | aside h => exact h.registry.nextId
    | spawn => simp
    | mount => exact spawn_registry (w.mapRegistry _) _ ▸ Nat.le_succ _
    | reach => simp [World.registry]
    | drop => simp [World.registry]
    | center => simp [World.registry]
    | finish => exact finish_registry .. ▸ Nat.le_refl _
    | _ => exact Nat.le_refl _

/-- Nobody loses his place in line. -/
theorem line (h : w.Passes log w') (hline : .queue ∉ log) :
    w.ready <+: w'.ready ∧ w.deferred <+: w'.deferred := by
  induction h with
  | trans _ _ first second =>
    obtain ⟨hready, hdeferred⟩ := first fun h => hline (List.mem_append_left _ h)
    obtain ⟨hready', hdeferred'⟩ := second fun h => hline (List.mem_append_right _ h)
    exact ⟨hready.trans hready', hdeferred.trans hdeferred'⟩
  | @step w w' log h =>
    cases h with
    | aside h => exact ⟨h.ready, h.deferred⟩
    | spawn => exact wake_line _ _ rfl rfl
    | mount => exact wake_line _ _ rfl rfl
    | @reach id _ task => exact wake_line _ _ rfl rfl
    | @drop id sub => exact wake_line _ _ rfl rfl
    | @center id => exact wake_line _ _ rfl rfl
    | finish => rw [finish_eq]; exact ⟨List.prefix_refl _, List.prefix_refl _⟩
    | queue => exact absurd (List.mem_singleton_self _) hline
    | _ => exact ⟨List.prefix_refl _, List.prefix_refl _⟩

theorem commands (h : w.Passes log w') :
    w'.wire.commands = w.wire.commands ++ log.filterMap Deed.command? := by
  induction h with
  | trans _ _ first second => rw [second, first, List.filterMap_append, List.append_assoc]
  | @step w w' log h =>
    cases h with
    | aside h => rw [h.commands]; exact (List.append_nil _).symm
    | spawn => rw [spawn_wire]; exact (List.append_nil _).symm
    | mount => rw [spawn_wire]; exact (List.append_nil _).symm
    | reach => rw [wake_wire]; exact (List.append_nil _).symm
    | drop => rw [wake_wire]; exact (List.append_nil _).symm
    | center => rw [wake_wire]; exact (List.append_nil _).symm
    | finish => rw [finish_eq]; exact (List.append_nil _).symm
    | beside => rfl
    | call => rfl
    | _ => exact (List.append_nil _).symm

/-- Fetches are remarked. -/
theorem fetches (h : w.Passes log w') (hnone : ∀ d, .fetch d ∉ log) :
    w'.wire.fetches = w.wire.fetches := by
  induction h with
  | trans _ _ first second =>
    rw [second fun d hd => hnone d (List.mem_append_right _ hd),
      first fun d hd => hnone d (List.mem_append_left _ hd)]
  | @step w w' log h =>
    cases h with
    | aside h => exact h.fetches
    | spawn => rw [spawn_wire]
    | mount => rw [spawn_wire]; rfl
    | reach => rw [wake_wire]; rfl
    | drop => rw [wake_wire]; rfl
    | center => rw [wake_wire]; rfl
    | finish => rw [finish_eq]; rfl
    | fetch d => exact absurd (List.mem_singleton_self _) (hnone d)
    | _ => rfl

end Passes

/-- Ids tell the tasks apart. -/
structure Lawful (w : World) : Prop where
  fresh : ∀ e ∈ w.tasks, e.1 < w.nextTask
  distinct : (w.tasks.map Prod.fst).Nodup
  /-- What a task holds was made. -/
  made : ∀ e ∈ w.tasks, ∀ sub, e.2.subscription? = some sub → sub < w.registry.nextId
  registry : w.registry.Lawful

namespace Lawful

theorem find?_of_mem (h : w.Lawful) {e : Nat × Task} (he : e ∈ w.tasks) : w.find? e.1 = some e.2 := by
  cases hf : w.find? e.1 with
  | none => exact absurd rfl (find?_eq_none.mp hf e he)
  | some task =>
    have heq := List.inj_on_of_nodup_map h.distinct he (mem_of_find? hf) rfl
    rw [heq]

theorem known (h : w.Lawful) (hf : w.find? id = some task) : id < w.nextTask :=
  h.fresh _ (mem_of_find? hf)

/-- Only who pulls is ended with the one for whom he does it. -/
theorem not_mem_pullsOf (h : w.Lawful) (hf : w.find? id = some task) (howner : task.owner? = none) :
    id ∉ w.pullsOf i := by
  intro hm
  obtain ⟨e, he, rfl⟩ := List.mem_map.mp hm
  obtain ⟨he, hown⟩ := List.mem_filter.mp he
  obtain rfl : e.2 = task := Option.some.inj ((h.find?_of_mem he).symm.trans hf)
  simp [howner] at hown

/-- The end of a task is not that of others, unless they pull for it. -/
theorem find?_finish_other (h : w.Lawful) (hf : w.find? id = some task) (howner : task.owner? = none)
    (hi : id ≠ i) (sub : Nat) : (w.finish i sub).find? id = some task := by
  rw [find?_finish, if_neg (not_or.mpr ⟨hi, h.not_mem_pullsOf hf howner⟩), hf]

theorem spawn (h : w.Lawful) {task : Task}
    (hmade : ∀ sub, task.subscription? = some sub → sub < w.registry.nextId) :
    (w.spawn task).2.Lawful where
  fresh := by
    intro e he
    rw [spawn_nextTask]
    rcases mem_spawn he with he | rfl
    · exact Nat.lt_succ_of_lt (h.fresh e he)
    · exact Nat.lt_succ_self _
  distinct := by
    rw [spawn_tasks, List.map_append, List.map_singleton]
    refine List.nodup_append.mpr ⟨h.distinct, List.nodup_singleton _, fun i hi j hj => ?_⟩
    obtain ⟨e, he, rfl⟩ := List.mem_map.mp hi
    rw [List.mem_singleton.mp hj]
    exact Nat.ne_of_lt (h.fresh e he)
  made := by
    intro e he s hs
    rw [spawn_registry]
    rcases mem_spawn he with he | rfl
    · exact h.made e he s hs
    · exact hmade s hs
  registry := by
    rw [spawn_registry]
    exact h.registry

theorem setTask (h : w.Lawful) {old : Task} (there : w.find? i = some old)
    (holds : ∀ sub, task.subscription? = some sub → old.subscription? = some sub) :
    (w.setTask i task).Lawful := by
  have hids : (w.setTask i task).tasks.map Prod.fst = w.tasks.map Prod.fst := by
    rw [World.setTask, List.map_map]
    refine List.map_congr_left fun e _ => ?_
    rw [Function.comp_apply]
    split
    · exact Eq.symm ‹_›
    · rfl
  refine ⟨fun e he => ?_, by rw [hids]; exact h.distinct, fun e he s hs => ?_, h.registry⟩
  · obtain ⟨e', he', heq⟩ := List.mem_map.mp (hids ▸ List.mem_map_of_mem he)
    exact heq ▸ h.fresh e' he'
  · rcases mem_setTask he with he | rfl
    · exact h.made e he s hs
    · exact h.made (i, old) (mem_of_find? there) s (holds s hs)

theorem aside (h : w.Lawful) (ha : w.Aside w') : w'.Lawful where
  fresh := by rw [ha.tasks, ha.nextTask]; exact h.fresh
  distinct := by rw [ha.tasks]; exact h.distinct
  made := by
    rw [ha.tasks]
    exact fun e he s hs => Nat.lt_of_lt_of_le (h.made e he s hs) ha.registry.nextId
  registry := ha.registry.lawful h.registry

theorem without (h : w.Lawful) (ids : List Nat) : (w.without ids).Lawful :=
  { h with
    fresh := fun e he => h.fresh e (List.mem_filter.mp he).1
    distinct := h.distinct.sublist (List.filter_sublist.map _)
    made := fun e he => h.made e (List.mem_filter.mp he).1 }

theorem release (h : w.Lawful) (sub : Nat) : (w.release sub).Lawful :=
  { h with registry := h.registry.release sub }

end Lawful

theorem Passes.lawful (h : w.Passes log w') (hw : w.Lawful) : w'.Lawful := by
  induction h with
  | trans _ _ first second => exact second (first hw)
  | @step w w' log h =>
    cases h with
    | aside h => exact hw.aside h
    | spawn free => exact hw.spawn fun s hs => by rw [free] at hs; cases hs
    | mount topic holds =>
      have hsubscribed : (w.mapRegistry fun r => (r.subscribe topic).2).Lawful :=
        { fresh := hw.fresh
          distinct := hw.distinct
          made := fun e he s hs => Nat.lt_succ_of_lt (hw.made e he s hs)
          registry := (Registry.Continues.subscribe w.registry topic).lawful hw.registry }
      refine hsubscribed.spawn fun s hs => ?_
      obtain rfl : w.registry.nextId = s := Option.some.inj (holds.symm.trans hs)
      exact Nat.lt_succ_self _
    | reach there stays => exact (hw.setTask there fun _ hs => stays.subscription ▸ hs).aside (.wake _ _)
    | look there stays => exact hw.setTask there fun _ hs => stays.subscription ▸ hs
    | own there stays => exact hw.setTask there fun _ hs => stays.subscription ▸ hs
    | @drop id sub holds =>
      obtain ⟨old, there, hs⟩ := holds
      refine Lawful.aside ?_ (.wake _ _)
      exact hw.setTask there fun _ h => hs.trans h
    | list => exact { hw with }
    | center there =>
      refine Lawful.aside ?_ (.wake _ _)
      exact hw.setTask there fun _ hs => hs
    | remove => exact remove_eq .. ▸ hw.without _
    | unsubscribe => exact hw.release _
    | finish => exact finish_eq .. ▸ (hw.without _).release _
    | fetch => exact { hw with }
    | beside => exact { hw with }
    | call there => exact Lawful.setTask { hw with } there nofun
    | clock => exact { hw with }
    | queue => exact { hw with }

end World

end VoiceAdmin.Timeline
