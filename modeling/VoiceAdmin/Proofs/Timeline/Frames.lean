import VoiceAdmin.Proofs.Timeline.Deeds
import VoiceAdmin.Timeline.Look
import VoiceAdmin.Timeline.Mount

namespace VoiceAdmin.Timeline.World

open Delivery (Registry Subscription)

variable {w w' w'' : World} {id sub : Nat} {log : List Deed}

/-- Only what is written down, the alarms and the number of ids that were given are different. -/
structure Calm (w w' : World) : Prop where
  now : w'.now = w.now
  tasks : w'.tasks = w.tasks
  nextTask : w'.nextTask = w.nextTask
  ready : w'.ready = w.ready
  deferred : w'.deferred = w.deferred
  unshown : w'.unshown = w.unshown
  wire : w'.wire = w.wire

namespace Calm

theorem refl (w : World) : w.Calm w := ⟨rfl, rfl, rfl, rfl, rfl, rfl, rfl⟩

theorem trans (h : w.Calm w') (h' : w'.Calm w'') : w.Calm w'' where
  now := h'.now.trans h.now
  tasks := h'.tasks.trans h.tasks
  nextTask := h'.nextTask.trans h.nextTask
  ready := h'.ready.trans h.ready
  deferred := h'.deferred.trans h.deferred
  unshown := h'.unshown.trans h.unshown
  wire := h'.wire.trans h.wire

theorem write (w : World) (line : Line) : w.Calm (w.write line) := ⟨rfl, rfl, rfl, rfl, rfl, rfl, rfl⟩

theorem writeAll (w : World) (lines : List Line) : w.Calm (w.writeAll lines) := by
  unfold World.writeAll
  induction lines generalizing w with
  | nil => exact refl w
  | cons line rest ih => exact (write w line).trans (ih _)

theorem clearAlarm (w : World) (id : Nat) : w.Calm (w.clearAlarm id) := ⟨rfl, rfl, rfl, rfl, rfl, rfl, rfl⟩

theorem setAlarm (w : World) (id time : Nat) : w.Calm (w.setAlarm id time) := by
  unfold World.setAlarm
  split <;> exact ⟨rfl, rfl, rfl, rfl, rfl, rfl, rfl⟩

theorem setTimer (w : World) (id : Nat) (center : Alerts.Center) : w.Calm (w.setTimer id center) := by
  unfold World.setTimer
  split
  · exact setAlarm w id _
  · exact refl w

theorem freshId (w : World) : w.Calm w.freshId.2 := ⟨rfl, rfl, rfl, rfl, rfl, rfl, rfl⟩

end Calm

namespace Aside

theorem calm (h : w.Calm w') : w.Aside w' where
  now := h.now
  tasks := h.tasks
  nextTask := h.nextTask
  ready := h.ready ▸ List.prefix_refl _
  deferred := h.deferred ▸ List.prefix_refl _
  unshown := h.unshown
  fetches := by rw [h.wire]
  commands := by rw [h.wire]
  registry := by rw [World.registry, World.registry, h.wire]; exact .refl _

theorem defer (w : World) (id : Nat) : w.Aside (w.defer id) :=
  { refl w with deferred := List.prefix_append _ _ }

theorem mapServer {change : Service.Server → Service.Server}
    (h : w.registry.Continues (change w.wire.server).registry) : w.Aside (w.mapServer change) :=
  { refl w with registry := h }

theorem serve (w : World) (topic : Topic) {change : Service.Server → Service.Server}
    (h : w.registry.Continues (change w.wire.server).registry) : w.Aside (w.serve topic change) :=
  (mapServer h).trans (foldl wake _ _)

theorem emit (w : World) (push : Push) : w.Aside (w.emit push) := serve w _ (.emit _ _ _)

theorem adopt (w : World) (outcome : Service.Outcome) : w.Aside (w.adopt outcome) :=
  ((mapServer (.refl _)).trans (foldl emit _ _)).trans (calm (.writeAll _ _))

theorem apply (w : World) (command : Command) : w.Aside (w.apply command) :=
  (calm (.freshId w)).trans (adopt _ _)

theorem setSubscription {s : Subscription} (h : (w.subscription sub).Continues s) :
    w.Aside (w.setSubscription sub s) := by
  have hregistry : w.registry.Continues (w.registry.update sub fun _ => s) := by
    refine .update fun s' hs => ?_
    rwa [World.subscription, show w.wire.server.registry.find? sub = some s' from hs] at h
  exact { refl w with registry := hregistry }

end Aside

/-- What happens is all of one kind. -/
def Within (kind : Deed → Prop) (w w' : World) : Prop :=
  ∃ log, w.Passes log w' ∧ ∀ deed ∈ log, kind deed

namespace Within

variable {kind kind' : Deed → Prop}

theorem mono (h : Within kind w w') (himp : ∀ deed, kind deed → kind' deed) : Within kind' w w' := by
  obtain ⟨log, hp, hall⟩ := h
  exact ⟨log, hp, fun deed hd => himp deed (hall deed hd)⟩

theorem happens (h : w.Happens log w') (hall : ∀ deed ∈ log, kind deed) : Within kind w w' :=
  ⟨log, .step h, hall⟩

theorem plain (h : w.Passes [] w') : Within kind w w' := ⟨[], h, nofun⟩

theorem aside (h : w.Aside w') : Within kind w w' := plain (.step (.aside h))

theorem calm (h : w.Calm w') : Within kind w w' := aside (.calm h)

theorem refl (w : World) : Within kind w w := aside (.refl w)

/-- A task starts that holds nothing and answers to nobody. -/
theorem spawn (w : World) {task : Task} (free : task.subscription? = none) (alone : task.owner? = none) :
    Within kind w (w.spawn task).2 :=
  plain (.step (.spawn w free (by simp [alone])))

theorem lawful (h : Within kind w w') (hw : w.Lawful) : w'.Lawful := by
  obtain ⟨log, hp, -⟩ := h
  exact hp.lawful hw

theorem nextTask_le (h : Within kind w w') : w.nextTask ≤ w'.nextTask := by
  obtain ⟨log, hp, -⟩ := h
  exact hp.nextTask_le

theorem nextId_le (h : Within kind w w') : w.registry.nextId ≤ w'.registry.nextId := by
  obtain ⟨log, hp, -⟩ := h
  exact hp.nextId_le

theorem trans (h : Within kind w w') (h' : Within kind w' w'') : Within kind w w'' := by
  obtain ⟨log, hp, hall⟩ := h
  obtain ⟨log', hp', hall'⟩ := h'
  exact ⟨log ++ log', hp.trans hp', fun deed hd => (List.mem_append.mp hd).elim (hall deed) (hall' deed)⟩

theorem foldl {α : Type} {f : World → α → World} (h : ∀ (w : World) (a : α), Within kind w (f w a))
    (list : List α) (w : World) : Within kind w (list.foldl f w) := by
  induction list generalizing w with
  | nil => exact refl w
  | cons a list ih => exact (h w a).trans (ih _)

end Within

namespace Passes

theorem aside (h : w.Aside w') : w.Passes [] w' := .step (.aside h)

theorem refl (w : World) : w.Passes [] w := aside (.refl w)

theorem deliver (w : World) (d : Domain) (owner : Nat) (result : Sync.PullEnd d) :
    w.Passes [] (w.deliver d owner result) := by
  unfold World.deliver
  split
  · rename_i there
    split
    · exact .step (.reach there ⟨rfl, rfl, rfl, rfl, rfl⟩ rfl id)
    · exact refl w
  · exact refl w

theorem control (w : World) (id : Nat) (message : Sync.Control) :
    w.Passes [] (w.control id message) := by
  unfold World.control
  split
  · rename_i task there
    refine .step (.reach there ⟨rfl, rfl, rfl, rfl, rfl⟩ rfl fun told => ?_)
    have htold : .unmount ∈ task.controls := by simpa [Task.told] using told
    simp [Task.told, htold]
  · exact refl w

theorem lookView (w : World) (id : Nat) : w.Passes [] (w.lookView id).2 := by
  unfold World.lookView
  split
  · rename_i there
    split
    · exact .step (.look there ⟨rfl, rfl, rfl, rfl, rfl⟩ rfl rfl)
    · exact refl w
  · exact refl w

theorem lookCenter (w : World) (id : Nat) : w.Passes [] (w.lookCenter id).2 := by
  unfold World.lookCenter
  split
  · rename_i there
    split
    · exact .step (.look there ⟨rfl, rfl, rfl, rfl, rfl⟩ rfl rfl)
    · exact refl w
  · exact refl w

end Passes

namespace Within

theorem drop (w : World) (id : Nat) : Within Deed.Outside w (w.drop id) := by
  have hdrop : ∀ {sub}, w.Holds id sub →
      Within Deed.Outside w ((w.setTask id (.dropped sub)).wake id) :=
    fun holds => happens (.drop holds) (by simp [Deed.Outside])
  unfold World.drop
  split
  · rename_i there
    exact hdrop ⟨_, there, rfl⟩
  · rename_i there
    exact hdrop ⟨_, there, rfl⟩
  · exact refl w

theorem send (w : World) (notifier : Notifier) (message : Alerts.Message) :
    Within Deed.IsMessage w (w.send notifier message) := by
  unfold World.send
  split
  · exact happens (.list w message) (by simp [Deed.IsMessage])
  · split
    · rename_i there
      exact happens (.center there message) (by simp [Deed.IsMessage])
    · exact refl w

theorem raise (w : World) (notifier : Notifier) (notice : Notice) :
    Within Deed.IsMessage w (w.raise notifier notice) :=
  (calm (.freshId w)).trans (send _ _ _)

theorem ask (w : World) (notifier : Notifier) (request : Request) :
    Within Deed.IsMessage w (w.ask notifier request).2 := by
  unfold World.ask
  split
  · exact spawn w rfl rfl
  · exact raise w _ _

theorem perform (w : World) (notifier : Notifier) (act : Console.Act) :
    Within Deed.IsMessage w (w.perform notifier act) := by
  cases act with
  | say text => exact calm (.write w _)
  | ask request => exact ask w notifier request
  | addFrequency band typed =>
    simp only [World.perform]
    split
    · exact ask w notifier _
    · exact calm (.write w _)
  | setAvailable available => exact (aside (.mapServer (.refl _))).trans (calm (.writeAll _ _))
  | announce notice => exact (calm (.freshId w)).trans (ask _ _ _)
  | pause ms => exact refl w

end Within

/-- A task that is no center is left alone by messages. -/
theorem find?_send {task : Task} (h : w.find? id = some task) (hc : ∀ c, task ≠ .center c)
    (notifier : Notifier) (message : Alerts.Message) :
    (w.send notifier message).find? id = some task := by
  unfold World.send
  split
  · exact h
  · rename_i i
    split
    · rename_i c there
      have hi : id ≠ i := by
        rintro rfl
        exact hc c (Option.some.inj (h.symm.trans there))
      rw [find?_wake, find?_setTask_other hi, h]
    · exact h

theorem find?_ask {task : Task} (h : w.find? id = some task) (hc : ∀ c, task ≠ .center c)
    (notifier : Notifier) (request : Request) : (w.ask notifier request).2.find? id = some task := by
  unfold World.ask
  split
  · exact find?_spawn_known h _
  · exact find?_send (w := w.freshId.2) h hc _ _

theorem find?_perform {acts : List Console.Act} {own : Notifier}
    (h : w.find? id = some (.script acts own)) (notifier : Notifier) (act : Console.Act) :
    (w.perform notifier act).find? id = some (.script acts own) := by
  cases act with
  | say text => exact h
  | ask request => exact find?_ask h nofun notifier request
  | addFrequency band typed =>
    simp only [World.perform]
    split
    · exact find?_ask h nofun notifier _
    · exact h
  | setAvailable available =>
    rw [World.perform]
    exact (find?_congr (Calm.writeAll _ _).tasks id).trans h
  | announce notice => exact find?_ask (w := w.freshId.2) h nofun notifier _
  | pause ms => exact h

theorem find?_sessionEffect {d : Domain} {task : Task} (h : w.find? id = some task)
    (hc : ∀ c, task ≠ .center c) (i : Nat) (notifier : Notifier) (effect : Sync.Effect) :
    (sessionEffect i d notifier w effect).find? id = some task := by
  cases effect with
  | startPull ticket => exact find?_spawn_known h _
  | raise notice => exact find?_send (w := w.freshId.2) h hc _ _
  | write line => exact h
  | publish => exact h
  | stop => exact h

/-- A session stays in the table as it was while it takes effect. -/
theorem find?_sessionEffects {d : Domain} {task : Task} (h : w.find? id = some task)
    (hc : ∀ c, task ≠ .center c) (i : Nat) (notifier : Notifier) (effects : List Sync.Effect) :
    (effects.foldl (sessionEffect i d notifier) w).find? id = some task := by
  induction effects generalizing w with
  | nil => exact h
  | cons effect rest ih => exact ih (find?_sessionEffect h hc i notifier effect)

theorem Within.sessionEffects {d : Domain} {task : SessionTask d} (h : w.find? id = some (.session d task))
    (notifier : Notifier) (effects : List Sync.Effect) :
    Within Deed.IsMessage w (effects.foldl (World.sessionEffect id d notifier) w) := by
  induction effects generalizing w with
  | nil => exact refl w
  | cons effect rest ih =>
    have hfirst : Within Deed.IsMessage w (sessionEffect id d notifier w effect) := by
      cases effect with
      | startPull ticket =>
        refine plain (.step (.spawn w rfl fun owner howner => ?_))
        obtain rfl : id = owner := Option.some.inj howner
        exact ⟨_, h⟩
      | raise notice => exact raise w notifier notice
      | write line => exact calm (.write w line)
      | publish => exact refl w
      | stop => exact refl w
    exact hfirst.trans (ih (find?_sessionEffect h nofun id notifier effect))

/-- What a call passes on is remembered. -/
theorem execute_wire (wire : Wire) (command : Command) :
    (wire.execute command).2 = { wire with commands := wire.commands ++ [command] } := by
  unfold Wire.execute
  split
  · rfl
  · split <;> rfl

theorem fetch_wire (wire : Wire) (d : Domain) :
    (wire.fetch d).2.2 = { wire with fetches := d :: wire.fetches } := by
  unfold Wire.fetch
  split
  · rfl
  · split <;> rfl

end VoiceAdmin.Timeline.World
