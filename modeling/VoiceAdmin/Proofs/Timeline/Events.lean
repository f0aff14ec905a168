import VoiceAdmin.Proofs.Timeline.Courses
import VoiceAdmin.Proofs.Timeline.Mounting

namespace VoiceAdmin.Timeline.World

open Delivery (Registry Subscription)

/-- Everything that may happen to a world, in any order: turns of its tasks, whenever they come, the clock
that moves on, what the remote side and its faults do, and what is asked of the console. -/
inductive Event where
  /-- A turn of a task. -/
  | turn (id : Nat)
  /-- The clock moves on, and alarms go off. -/
  | pass (ms : Nat)
  /-- All tasks run until none can go on. -/
  | settle
  | wait (ms : Nat)
  /-- The service does something and pushes it. -/
  | operate (outcome : Service.Outcome)
  | apply (command : Command)
  | emit (push : Push)
  | closeTopic (topic : Topic)
  | setAvailable (available : Bool)
  | setLatency (ms : Nat)
  | setEnvelope (style : Envelope)
  | setOutage (d : Domain) (outage : Option Outage)
  | refuse (topic : Topic) (error : Option RemoteError)
  | failCommands (error : Option RemoteError)
  /-- Somebody else works with the service. -/
  | subscribe (topic : Topic)
  | drain (sub : Nat)
  | unsubscribe (sub : Nat)
  | fetch (d : Domain)
  | execute (command : Command)
  | later (ms : Nat) (push : Push)
  | script (acts : List Console.Act) (notifier : Notifier)
  | control (id : Nat) (message : Sync.Control)
  | send (notifier : Notifier) (message : Alerts.Message)
  | ask (notifier : Notifier) (request : Request)
  | drop (id : Nat)
  | lookView (id : Nat)
  | lookCenter (id : Nat)
  | mountView (config : Sync.Config) (notifier : Notifier) (d : Domain)
  | mountCenter (config : Sync.Config)
  | mountConsole (config : Sync.Config)
  | unmountView (id : Nat)
  | unmountCenter (id : Nat)
  | unmountConsole (console : ConsoleTasks)
  | dropConsole (console : ConsoleTasks)

/-- Nobody gives back a subscription that a task holds but the task. -/
def play (w : World) : Event → World
  | .turn id => w.run id
  | .pass ms => w.jump (w.now + ms)
  | .settle => w.settle
  | .wait ms => w.waitUntil id (w.now + ms)
  | .operate outcome => w.adopt outcome
  | .apply command => w.apply command
  | .emit push => w.emit push
  | .closeTopic topic =>
    let (server, lines) := w.wire.server.closeTopic topic
    (w.serve topic fun _ => server).writeAll lines
  | .setAvailable available =>
    let (server, lines) := w.wire.server.setAvailable available
    (w.mapServer fun _ => server).writeAll lines
  | .setLatency ms => w.mapServer fun server => { server with latency := ms }
  | .setEnvelope style => w.mapServer fun server => { server with envelope := style }
  | .setOutage d outage =>
    { w with wire := { w.wire with outages := Wire.setEntry w.wire.outages d outage } }
  | .refuse topic error =>
    { w with wire := { w.wire with refusals := Wire.setEntry w.wire.refusals topic error } }
  | .failCommands error => { w with wire := { w.wire with commandFailure := error } }
  | .subscribe topic =>
    match w.subscribe topic with
    | .ok (_, w) => w
    | .error _ => w
  | .drain sub => w.setSubscription sub { w.subscription sub with pending := [] }
  | .unsubscribe sub => if w.tasks.any (fun e => e.2.subscription? = some sub) then w else w.release sub
  | .fetch d => { w with wire := (w.wire.fetch d).2.2 }
  | .execute command => { w with wire := (w.wire.execute command).2 }
  | .later ms push => (w.spawn (.later ms push)).2
  | .script acts notifier => (w.spawn (.script acts notifier)).2
  | .control id message => w.control id message
  | .send notifier message => w.send notifier message
  | .ask notifier request => (w.ask notifier request).2
  | .drop id => w.drop id
  | .lookView id => (w.lookView id).2
  | .lookCenter id => (w.lookCenter id).2
  | .mountView config notifier d =>
    match w.mountView config notifier d with
    | .ok (_, w) => w
    | .error _ => w
  | .mountCenter config =>
    match w.mountCenter config with
    | .ok (_, w) => w
    | .error _ => w
  | .mountConsole config => (w.mountConsole config).2
  | .unmountView id => w.unmountView id
  | .unmountCenter id => w.unmountCenter id
  | .unmountConsole console => w.unmountConsole console
  | .dropConsole console => w.dropConsole console

def playAll (w : World) (events : List Event) : World := events.foldl play w

variable {w v : World}

/-- Something happens, turn by turn. -/
def Goes (w w' : World) : Prop := ∃ log, w.Course log w'

namespace Goes

theorem lawful (h : w.Goes v) (hw : w.Lawful) : v.Lawful := by
  obtain ⟨log, h⟩ := h
  exact h.passes.lawful hw

theorem lined (h : w.Goes v) (hw : w.Lawful) (hl : w.Lined) : v.Lined := by
  obtain ⟨log, h⟩ := h
  exact h.lined hw hl

theorem heeds {id : Nat} (h : w.Goes v) (hh : w.Heeds id) : v.Heeds id := by
  obtain ⟨log, h⟩ := h
  exact h.heeds hh

theorem running {topic : Topic} {id sub : Nat} (h : w.Goes v) (hw : w.Lawful)
    (hr : w.Running topic id sub ∨ w.Ended topic id sub) :
    v.Running topic id sub ∨ v.Ended topic id sub := by
  obtain ⟨log, h⟩ := h
  exact hr.elim (h.passes.running hw) fun he => .inr (h.passes.ended hw he)

theorem ended {topic : Topic} {id sub : Nat} (h : w.Goes v) (hw : w.Lawful) (he : w.Ended topic id sub) :
    v.Ended topic id sub := by
  obtain ⟨log, h⟩ := h
  exact h.passes.ended hw he

theorem within (h : Within Deed.Outside w v) : w.Goes v := by
  obtain ⟨log, hp, hall⟩ := h
  exact ⟨log, .outside hp hall⟩

theorem aside (h : w.Aside v) : w.Goes v := within (.aside h)

theorem refl (w : World) : w.Goes w := aside (.refl w)

theorem trans {u : World} (h : w.Goes v) (h' : v.Goes u) : w.Goes u := by
  obtain ⟨_, h⟩ := h
  obtain ⟨_, h'⟩ := h'
  exact ⟨_, h.trans h'⟩

theorem foldl {α : Type} {f : World → α → World} (h : ∀ (w : World) (a : α), w.Goes (f w a))
    (list : List α) (w : World) : w.Goes (list.foldl f w) := by
  induction list generalizing w with
  | nil => exact refl w
  | cons a list ih => exact (h w a).trans (ih _)

theorem run (w : World) (id : Nat) : w.Goes (w.run id) := by
  obtain ⟨log, hp, hall⟩ := Within.run w id
  exact ⟨log, .turn id hp hall⟩

theorem settleWithin (turns : Nat) (w : World) : w.Goes (settleWithin turns w) := by
  induction turns generalizing w with
  | zero => exact refl w
  | succ turns ih =>
    unfold World.settleWithin
    split
    · exact refl w
    · rename_i hready hdeferred
      exact trans ⟨_, .resume hready⟩ (ih _)
    · rename_i id line head
      obtain ⟨log, hp, hall⟩ := Within.run { w with ready := line } id
      exact trans ⟨_, .first head hp hall⟩ (ih _)

theorem settleRounds (rounds : Nat) (w : World) : w.Goes (settleRounds rounds w) := by
  induction rounds generalizing w with
  | zero => exact refl w
  | succ rounds ih => exact (settleWithin _ w).trans (ih _)

theorem settle (w : World) : w.Goes w.settle := settleRounds _ w

theorem jump (w : World) (time : Nat) : w.Goes (w.jump time) := by
  have hclock : Within Deed.Outside w
      { w with now := time, alarms := w.alarms.filter fun a => time < a.time } :=
    .happens (.clock w _ _) (by simp [Deed.Outside])
  exact within (hclock.trans (.aside (.foldl .wake _ _)))

theorem elapse (after limit : Nat) (w : World) : w.Goes (elapse id after limit w) := by
  induction after, w using World.elapse.induct id limit with
  | case1 after w hnone =>
    rw [World.elapse, hnone]
    exact refl w
  | case2 after w time hafter hnext ih =>
    rw [World.elapse, hnext]
    exact ((jump w time).trans (settle _)).trans ih

theorem waitUntil (time : Nat) (w : World) : w.Goes (w.waitUntil id time) := by
  unfold World.waitUntil
  split
  · exact refl w
  · exact ((settle w).trans (elapse _ _ _)).trans (jump _ _)

theorem unmountView (w : World) (id : Nat) : w.Goes (w.unmountView id) :=
  (within (.plain (.control w id .unmount))).trans (settle _)

theorem unmountCenter (w : World) (id : Nat) : w.Goes (w.unmountCenter id) :=
  (within ((Within.send w (.center id) .shutdown).mono fun _ => Deed.outside_of_isMessage)).trans (settle _)

theorem unmountConsole (w : World) (console : ConsoleTasks) : w.Goes (w.unmountConsole console) := by
  have hviews := foldl (fun w (s : Domain × Nat) => unmountView w s.2) console.sessions w
  exact (hviews.trans (unmountCenter _ _)).trans (aside (.calm (.write _ _)))

theorem dropConsole (w : World) (console : ConsoleTasks) : w.Goes (w.dropConsole console) :=
  within (.foldl .drop _ w)

/-- Whatever happens happens turn by turn. -/
theorem play (w : World) (event : Event) : w.Goes (w.play event) := by
  -- What only changes the wire changes nothing of the tasks.
  have hwire : ∀ {wire : Wire}, w.registry.Continues wire.server.registry →
      wire.fetches = w.wire.fetches → wire.commands = w.wire.commands → w.Goes { w with wire } :=
    fun registry fetches commands => aside { Aside.refl w with registry, fetches, commands }
  have hmessage : ∀ {v}, Within Deed.IsMessage w v → w.Goes v :=
    fun h => within (h.mono fun _ => Deed.outside_of_isMessage)
  cases event with
  | turn id => exact run w id
  | pass ms => exact jump w _
  | settle => exact settle w
  | wait ms => exact waitUntil _ w
  | operate outcome => exact aside (.adopt w outcome)
  | apply command => exact aside (.apply w command)
  | emit push => exact aside (.emit w push)
  | closeTopic topic =>
    have hclosed : w.registry.Continues (w.wire.server.closeTopic topic).1.registry := by
      have hregistry := Registry.Continues.closeTopic w.registry topic
      unfold Service.Server.closeTopic
      split
      · rename_i heq
        rwa [show w.registry.closeTopic topic = _ from heq] at hregistry
      · rename_i heq
        rwa [show w.registry.closeTopic topic = _ from heq] at hregistry
    exact aside ((Aside.serve w topic hclosed).trans (.calm (.writeAll _ _)))
  | setAvailable available =>
    have hset : w.Aside (w.mapServer fun _ => (w.wire.server.setAvailable available).1) := .mapServer (.refl _)
    exact aside (hset.trans (.calm (.writeAll _ _)))
  | setLatency ms => exact hwire (.refl _) rfl rfl
  | setEnvelope style => exact hwire (.refl _) rfl rfl
  | setOutage d outage => exact hwire (.refl _) rfl rfl
  | refuse topic error => exact hwire (.refl _) rfl rfl
  | failCommands error => exact hwire (.refl _) rfl rfl
  | subscribe topic =>
    simp only [World.play]
    rw [subscribe_eq]
    cases w.refusal topic with
    | some e => exact refl w
    | none => exact hwire (.subscribe _ topic) rfl rfl
  | drain sub => exact aside (.setSubscription (.pending _ _))
  | unsubscribe sub =>
    simp only [World.play]
    split
    · exact refl w
    · rename_i hfree
      -- No task was found to hold it, which is what giving it back from outside asks for.
      refine within (.plain (.step (.unsubscribe fun e he hs => hfree ?_)))
      exact List.any_eq_true.mpr ⟨e, he, decide_eq_true hs⟩
  | fetch d =>
    simp only [World.play, fetch_wire]
    exact within (.happens (.fetch w d) (by simp [Deed.Outside]))
  | execute command =>
    simp only [World.play, execute_wire]
    exact within (.happens (.beside w command) (by simp [Deed.Outside]))
  | later ms push => exact within (.spawn w rfl rfl)
  | script acts notifier => exact within (.spawn w rfl rfl)
  | control id message => exact within (.plain (.control w id message))
  | send notifier message => exact hmessage (.send w notifier message)
  | ask notifier request => exact hmessage (.ask w notifier request)
  | drop id => exact within (.drop w id)
  | lookView id => exact within (.plain (.lookView w id))
  | lookCenter id => exact within (.plain (.lookCenter w id))
  | mountView config notifier d =>
    simp only [World.play]
    split
    · rename_i heq
      exact within (.mountView heq)
    · exact refl w
  | mountCenter config =>
    simp only [World.play]
    split
    · rename_i heq
      exact within (.mountCenter heq)
    · exact refl w
  | mountConsole config => exact within (.mountConsole w config)
  | unmountView id => exact unmountView w id
  | unmountCenter id => exact unmountCenter w id
  | unmountConsole console => exact unmountConsole w console
  | dropConsole console => exact dropConsole w console

theorem playAll (w : World) (events : List Event) : w.Goes (w.playAll events) := foldl play events w

end Goes

variable {ids : Nat → String}

theorem Lawful.empty (ids : Nat → String) : ({ ids } : World).Lawful where
  fresh _ he := absurd he List.not_mem_nil
  distinct := .nil
  made _ he := absurd he List.not_mem_nil
  registry := ⟨.empty, .nil⟩

theorem Lined.empty (ids : Nat → String) : ({ ids } : World).Lined := fun _ h => absurd rfl h

/-- Whatever happens, ids go on telling tasks and subscriptions apart. -/
theorem playAll_lawful (ids : Nat → String) (events : List Event) :
    (({ ids } : World).playAll events).Lawful :=
  (Goes.playAll { ids } events).lawful (.empty ids)

/-- Whatever happens, a call that has not been sent stands in line. -/
theorem playAll_lined (ids : Nat → String) (events : List Event) :
    (({ ids } : World).playAll events).Lined :=
  (Goes.playAll { ids } events).lined (.empty ids) (.empty ids)

end VoiceAdmin.Timeline.World
