import Mathlib
import VoiceAdmin.Proofs.Timeline.Events

namespace VoiceAdmin

namespace Alerts

variable {c next : Center} {now : Nat} {inbox rest : Inbox} {effects : List Effect}

theorem Queue.length_enqueue_le (q : Queue) (n : Notification) (arrival : Nat) :
    (q.enqueue n arrival).2.entries.length ≤ q.entries.length + 1 := by
  unfold Queue.enqueue
  split
  · exact Nat.le_succ _
  · exact Nat.le_refl _

theorem Inbox.Taken.pending_le {listening due : Bool} {input : Input} (h : inbox.Taken listening due input rest) :
    rest.subscription.pending.length ≤ inbox.subscription.pending.length := by
  cases h with
  | push _ _ given =>
    rw [Delivery.Subscription.pending_of_payload given]
    exact Nat.le_succ _
  | _ => exact Nat.le_refl _

namespace Center

theorem update_queue (c : Center) (changed : Bool) (queue : Queue) : (c.update changed queue).1.queue = queue := by
  unfold update
  split <;> rfl

theorem length_enqueue_le {n : Notification} (h : c.enqueue n now = (next, effects)) :
    next.queue.entries.length ≤ c.queue.entries.length + 1 := by
  obtain rfl : (c.enqueue n now).1 = next := congrArg Prod.fst h
  rw [enqueue, update_queue]
  exact c.queue.length_enqueue_le n now

theorem length_handle_le {input : Input} (hinput : input ≠ .expiry)
    (h : c.handle now input = .ok (next, effects)) :
    next.queue.entries.length ≤ c.queue.entries.length + 1 := by
  cases input with
  | message m =>
    cases m with
    | enqueue n => exact length_enqueue_le (Except.ok.inj h)
    | dismiss id =>
      obtain rfl : (c.update _ (c.queue.dismiss id).2).1 = next := congrArg Prod.fst (Except.ok.inj h)
      rw [update_queue]
      exact Nat.le_succ_of_le (List.length_filter_le ..)
    | shutdown =>
      cases h
      exact Nat.le_succ _
  | push payload =>
    simp only [handle] at h
    split at h
    · exact length_enqueue_le (Except.ok.inj h)
    · cases h
      exact Nat.le_succ _
  | streamClosed =>
    cases h
    exact Nat.le_succ _
  | expiry => exact absurd rfl hinput

/-- When the deadline has come, something is taken out. -/
theorem length_expiry_lt {t : Nat} (hdeadline : c.deadline = .ok (some t)) (hcome : t ≤ now)
    (h : c.handle now .expiry = .ok (next, effects)) :
    next.queue.entries.length < c.queue.entries.length := by
  obtain ⟨-, ⟨e, he, rfl⟩, -⟩ := Queue.nextDeadline_eq_some.mp (deadline_ok hdeadline).2
  cases hexpire : c.queue.expire now with
  | error panic =>
    rw [handle, hexpire] at h
    cases h
  | ok expired =>
    obtain ⟨ids, left⟩ := expired
    rw [handle, hexpire] at h
    obtain rfl : (c.update _ left).1 = next := congrArg Prod.fst (Except.ok.inj h)
    rw [update_queue]
    exact Queue.expire_shorter hexpire he hcome

/-- What a center has to take note of: its messages, what is pushed to it, and what is shown for a while. -/
def load (c : Center) (inbox : Inbox) : Nat :=
  2 * inbox.messages.length + 3 * inbox.subscription.pending.length + c.queue.entries.length +
    c.listening.toNat

/-- Every input leaves less of it. -/
theorem step_load (h : c.step now inbox = .ok (some (next, rest, effects))) :
    next.load rest < c.load inbox := by
  obtain ⟨first, input, handled, hdeadline, htaken, hhandle, rfl⟩ := step_taken h
  have hlistening := (handle_goes hhandle).1
  show handled.load rest < c.load inbox
  unfold load
  cases htaken with
  | message hfirst =>
    have hentries := length_handle_le (by simp) hhandle
    rw [hlistening, hfirst, List.length_cons]
    simp only [Input.closes, Bool.not_false, Bool.and_true]
    omega
  | push hempty hlistens hgiven =>
    have hentries := length_handle_le (by simp) hhandle
    rw [hlistening, Delivery.Subscription.pending_of_payload hgiven, List.length_cons]
    simp only [Input.closes, Bool.not_false, Bool.and_true]
    omega
  | closed hempty hlistens hover =>
    cases hhandle
    simp only [hlistens, Bool.toNat_true, Bool.toNat_false]
    omega
  | expiry hempty hwaits hlate =>
    obtain ⟨t, rfl, hcome⟩ : ∃ t, first = some t ∧ t ≤ now := by
      cases first with
      | none => cases hlate
      | some t => exact ⟨t, rfl, of_decide_eq_true hlate⟩
    have hshorter := length_expiry_lt hdeadline hcome hhandle
    rw [hlistening]
    simp only [Input.closes, Bool.not_false, Bool.and_true]
    omega

end Center

end Alerts

namespace Sync

variable {d : Domain} {s next : Session d} {inbox rest : Inbox d} {effects : List Effect}

/-- How often an alert is raised. -/
def raises (effects : List Effect) : Nat :=
  effects.countP fun
    | .raise _ => true
    | _ => false

/-- What a session is asked to do. -/
def Inbox.asked (inbox : Inbox d) : Nat :=
  5 * inbox.controls.length + inbox.finished.length + 5 * inbox.tickDue.toNat

/-- What is pushed to a session, up to the end of its stream. -/
def Session.load (s : Session d) (inbox : Inbox d) : Nat :=
  3 * inbox.subscription.pending.length + s.listening.toNat

theorem Inbox.Takes.pending_le {listening : Bool} {input : Input d} (h : inbox.Takes listening input rest) :
    rest.subscription.pending.length ≤ inbox.subscription.pending.length := by
  cases h with
  | push _ _ _ first =>
    rw [first]
    exact Nat.le_succ _
  | _ => exact Nat.le_refl _

/-- A session does something that it was asked to do, or takes note of something, without which it pulls
nothing. -/
theorem Session.step_load (h : s.step inbox = some (next, rest, effects)) :
    rest.asked + 3 * (issued effects).length < inbox.asked ∨
      rest.asked = inbox.asked ∧ issued effects = [] ∧
        2 * next.load rest + 5 * raises effects < 2 * s.load inbox := by
  obtain ⟨input, htakes, hhandle⟩ := step_takes h
  have hissued := s.handle_issued input
  have hlistening := s.handle_listening input
  rw [hhandle] at hissued hlistening
  have hpull : (issued effects).length ≤ 1 := by
    rw [hissued]
    split <;> simp
  unfold Inbox.asked Session.load
  cases htakes with
  | control first =>
    left
    rw [first, List.length_cons]
    dsimp only
    omega
  | @push payload later calm hears held first =>
    right
    have hnone : issued effects = [] := by
      rw [hissued]
      simp [Input.isRequest]
    have hraises : raises effects ≤ 1 := by
      have heffects : effects = (s.handlePush payload).2 := (congrArg Prod.snd hhandle).symm
      rw [heffects]
      unfold handlePush update
      split
      · split <;> exact Nat.zero_le _
      · exact Nat.le_refl _
    rw [hlistening, first, List.length_cons]
    dsimp only
    exact ⟨rfl, hnone, by omega⟩
  | streamClosed calm hears ended =>
    right
    cases hhandle
    exact ⟨rfl, rfl, by simp [hears, raises]⟩
  | pulled calm drained first =>
    left
    have hnone : issued effects = [] := by
      rw [hissued]
      simp [Input.isRequest]
    rw [hnone, first, List.length_cons]
    simp
  | tick calm drained idle due =>
    left
    rw [due]
    simp only [Bool.toNat_true, Bool.toNat_false]
    omega

end Sync

namespace Timeline.World

open Delivery (Registry Subscription Member)

variable {w w' w'' : World} {id sub k : Nat} {old task : Task}

/-- A sum over all tasks. -/
def total (w : World) (f : Task → Nat) : Nat := (w.tasks.map fun e => f e.2).sum

/-- How much was pushed that nobody has taken. -/
def untaken (r : Registry) : Nat := (r.members.map fun m => m.subscription.pending.length).sum

theorem foldr_eq_sum {α : Type} (f : α → Nat) (l : List α) :
    l.foldr (fun x n => f x + n) 0 = (l.map f).sum :=
  (List.foldr_map ..).symm

theorem totalOrders_eq (w : World) : w.totalOrders = w.total (orders w.now) :=
  foldr_eq_sum _ _

theorem round_eq (w : World) :
    w.round = 6 * untaken w.registry + 2 * w.total notes + w.ready.length + 2 * w.deferred.length := by
  rw [round, totalNotes, foldr_eq_sum, foldr_eq_sum, untaken, total, registry]
  omega

/-- Where a task stands in the table. -/
theorem Lawful.split (hw : w.Lawful) (there : w.find? id = some old) :
    ∃ before after, w.tasks = before ++ (id, old) :: after ∧
      (∀ task, (w.setTask id task).tasks = before ++ (id, task) :: after) ∧
      (w.remove id).tasks = before ++ after := by
  obtain ⟨before, after, htasks, -⟩ := List.lookup_eq_some_iff.mp there
  have hdistinct := hw.distinct
  rw [htasks, List.map_append, List.map_cons, List.nodup_middle, List.nodup_cons] at hdistinct
  have hothers : ∀ e ∈ before ++ after, e.1 ≠ id := by
    intro e he heq
    rw [← List.map_append] at hdistinct
    exact hdistinct.1 (List.mem_map.mpr ⟨e, he, heq⟩)
  have hset : ∀ (task : Task) (entries : List (Nat × Task)), (∀ e ∈ entries, e ∈ before ++ after) →
      (entries.map fun e => if e.1 = id then (id, task) else e) = entries := by
    intro task entries hall
    exact List.map_congr_left (fun e he => if_neg (hothers e (hall e he))) |>.trans (List.map_id _)
  have hkeep : ∀ entries : List (Nat × Task), (∀ e ∈ entries, e ∈ before ++ after) →
      entries.filter (fun e => e.1 ≠ id) = entries :=
    fun entries hall => List.filter_eq_self.mpr fun e he => by simpa using hothers e (hall e he)
  have hbefore : ∀ e ∈ before, e ∈ before ++ after := fun e he => List.mem_append_left _ he
  have hafter : ∀ e ∈ after, e ∈ before ++ after := fun e he => List.mem_append_right _ he
  refine ⟨before, after, htasks, fun task => ?_, ?_⟩
  · rw [World.setTask, htasks, List.map_append, List.map_cons, hset task before hbefore,
      hset task after hafter, if_pos rfl]
  · rw [World.remove]
    show w.tasks.filter _ = _
    rw [htasks, List.filter_append, List.filter_cons_of_neg (by simp), hkeep before hbefore,
      hkeep after hafter]

theorem total_setTask (hw : w.Lawful) (there : w.find? id = some old) (task : Task) (f : Task → Nat) :
    (w.setTask id task).total f + f old = w.total f + f task := by
  obtain ⟨before, after, htasks, hset, -⟩ := hw.split there
  simp only [total, htasks, hset, List.map_append, List.map_cons, List.sum_append, List.sum_cons]
  omega

theorem total_remove (hw : w.Lawful) (there : w.find? id = some old) (f : Task → Nat) :
    (w.remove id).total f + f old = w.total f := by
  obtain ⟨before, after, htasks, -, hremove⟩ := hw.split there
  simp only [total, htasks, hremove, List.map_append, List.map_cons, List.sum_append, List.sum_cons]
  omega

theorem total_congr (h : w'.tasks = w.tasks) (f : Task → Nat) : w'.total f = w.total f := by
  rw [total, h, total]

theorem total_finish_le (hw : w.Lawful) (there : w.find? id = some old) (sub : Nat) (f : Task → Nat) :
    (w.finish id sub).total f + f old ≤ w.total f := by
  rw [← total_remove hw there]
  refine Nat.add_le_add_right (List.Sublist.sum_le_sum (List.Sublist.map _ ?_) fun _ _ => Nat.zero_le _) _
  rw [finish, cancelPulls_eq]
  exact List.Sublist.filter _ List.filter_sublist

theorem untaken_release_le (r : Registry) (sub : Nat) : untaken (r.release sub) ≤ untaken r := by
  unfold untaken Registry.release Registry.update
  rw [List.map_map]
  refine List.sum_le_sum fun m _ => ?_
  rw [Function.comp_apply]
  split
  · cases hheld : m.subscription.held <;> simp [Subscription.release, Subscription.close, hheld]
  · exact Nat.le_refl _

/-- What a subscription gives out is taken. -/
theorem untaken_update (r : Registry) (hd : (r.members.map Member.id).Nodup) {old s : Subscription}
    (hf : r.find? sub = some old) :
    untaken (r.update sub fun _ => s) + old.pending.length = untaken r + s.pending.length := by
  obtain ⟨m, hfind, rfl⟩ := Option.map_eq_some_iff.mp hf
  obtain ⟨hid, before, after, hmembers, -⟩ := List.find?_eq_some_iff_append.mp hfind
  have hid : m.id = sub := by simpa using hid
  rw [hmembers, List.map_append, List.map_cons, List.nodup_middle, List.nodup_cons] at hd
  have hothers : ∀ members : List Member, (∀ x ∈ members, x ∈ before ++ after) →
      (members.map fun x => if x.id = sub then { x with subscription := s } else x) = members := by
    intro members hall
    refine (List.map_congr_left fun x hx => if_neg ?_).trans (List.map_id _)
    intro heq
    rw [← List.map_append] at hd
    exact hd.1 ((hid.trans heq.symm) ▸ List.mem_map_of_mem (hall x hx))
  unfold untaken Registry.update
  dsimp only
  rw [hmembers, List.map_append, List.map_cons, hothers before fun x hx => List.mem_append_left _ hx,
    hothers after fun x hx => List.mem_append_right _ hx, if_pos hid]
  simp only [List.map_append, List.map_cons, List.sum_append, List.sum_cons]
  omega

/-- How much the orders and the rest of the round may grow at an instant. -/
structure Grows (w w' : World) (orders round : Nat) : Prop where
  now : w'.now = w.now
  orders : w'.totalOrders ≤ w.totalOrders + orders
  round : w'.round ≤ w.round + round

namespace Grows

variable {m n m' n' : Nat}

theorem trans (h : Grows w w' m n) (h' : Grows w' w'' m' n') : Grows w w'' (m + m') (n + n') where
  now := h'.now.trans h.now
  orders := by
    have := h.orders
    have := h'.orders
    omega
  round := by
    have := h.round
    have := h'.round
    omega

theorem mono (h : Grows w w' m n) (hm : m ≤ m') (hn : n ≤ n') : Grows w w' m' n' where
  now := h.now
  orders := Nat.le_trans h.orders (Nat.add_le_add_left hm _)
  round := Nat.le_trans h.round (Nat.add_le_add_left hn _)

theorem calm (h : w.Calm w') : Grows w w' 0 0 where
  now := h.now
  orders := by rw [totalOrders_eq, totalOrders_eq, h.now, total_congr h.tasks]; exact Nat.le_refl _
  round := by
    rw [round_eq, round_eq, total_congr h.tasks, h.ready, h.deferred, registry, registry, h.wire]
    exact Nat.le_refl _

theorem refl (w : World) : Grows w w 0 0 := calm (.refl w)

theorem wake (w : World) (id : Nat) : Grows w (w.wake id) 0 1 := by
  unfold World.wake
  split
  · exact (refl w).mono (Nat.le_refl _) (Nat.zero_le _)
  · refine ⟨rfl, Nat.le_refl _, ?_⟩
    simp only [round_eq, total, registry, List.length_append, List.length_singleton]
    omega

theorem spawn (w : World) (task : Task) :
    Grows w (w.spawn task).2 (World.orders w.now task) (2 * notes task + 1) := by
  have hwake := wake { w with nextTask := w.nextTask + 1, tasks := w.tasks ++ [(w.nextTask, task)] } w.nextTask
  have hentered : Grows w { w with nextTask := w.nextTask + 1, tasks := w.tasks ++ [(w.nextTask, task)] }
      (World.orders w.now task) (2 * notes task) := by
    refine ⟨rfl, ?_, ?_⟩
    · simp [totalOrders_eq, total]
    · simp only [round_eq, total, registry, List.map_append, List.sum_append, List.map_cons, List.map_nil,
        List.sum_cons, List.sum_nil]
      omega
  exact (hentered.trans hwake).mono (Nat.le_refl _) (Nat.le_refl _)

/-- A message to a center takes up two turns of it, and one of somebody else's. -/
theorem send (hw : w.Lawful) (notifier : Notifier) (message : Alerts.Message) :
    Grows w (w.send notifier message) 0 5 := by
  unfold World.send
  split
  · refine ⟨rfl, Nat.le_refl _, ?_⟩
    exact Nat.le_add_right _ _
  · split
    · rename_i id _ task there
      have horders := total_setTask hw there (.center { task with messages := task.messages ++ [message] })
        (World.orders w.now)
      have hnotes := total_setTask hw there (.center { task with messages := task.messages ++ [message] }) notes
      have hset : Grows w (w.setTask id (.center { task with messages := task.messages ++ [message] })) 0 4 := by
        refine ⟨rfl, ?_, ?_⟩
        · rw [totalOrders_eq, totalOrders_eq]
          exact Nat.le_of_eq horders
        · rw [round_eq, round_eq]
          simp only [notes, List.length_append, List.length_singleton] at hnotes
          show 6 * untaken w.registry + _ + w.ready.length + 2 * w.deferred.length ≤ _
          omega
      exact hset.trans (wake _ _)
    · exact (refl w).mono (Nat.le_refl _) (Nat.zero_le _)

theorem raise (hw : w.Lawful) (notifier : Notifier) (notice : Notice) :
    Grows w (w.raise notifier notice) 0 5 :=
  (calm (.freshId w)).trans (send (hw.aside (.calm (.freshId w))) notifier _)

end Grows

theorem orders_setTask (hw : w.Lawful) (there : w.find? id = some old) (task : Task) :
    (w.setTask id task).totalOrders + orders w.now old = w.totalOrders + orders w.now task := by
  rw [totalOrders_eq, totalOrders_eq]
  exact total_setTask hw there task (orders w.now)

theorem orders_remove (hw : w.Lawful) (there : w.find? id = some old) :
    (w.remove id).totalOrders + orders w.now old = w.totalOrders := by
  rw [totalOrders_eq, totalOrders_eq]
  exact total_remove hw there (orders w.now)

theorem round_setTask (hw : w.Lawful) (there : w.find? id = some old) (task : Task) :
    (w.setTask id task).round + 2 * notes old = w.round + 2 * notes task := by
  have hnotes := total_setTask hw there task notes
  rw [round_eq, round_eq]
  show 6 * untaken w.registry + _ + w.ready.length + 2 * w.deferred.length + _ = _
  omega

/-- The end of a task leaves no more than if it went on. -/
theorem finish_le (hw : w.Lawful) (there : w.find? id = some old) (sub : Nat) (task : Task) :
    (w.finish id sub).totalOrders ≤ (w.setTask id task).totalOrders ∧
      (w.finish id sub).round ≤ (w.setTask id task).round := by
  have hqueues : (w.finish id sub).now = w.now ∧ (w.finish id sub).ready = w.ready ∧
      (w.finish id sub).deferred = w.deferred := by
    rw [finish_eq]
    exact ⟨rfl, rfl, rfl⟩
  obtain ⟨hnow, hready, hdeferred⟩ := hqueues
  constructor
  · have hset := orders_setTask hw there task
    have hfinish := total_finish_le hw there sub (orders w.now)
    rw [totalOrders_eq w] at hset
    rw [totalOrders_eq, hnow]
    omega
  · have hset := round_setTask hw there task
    have hfinish := total_finish_le hw there sub notes
    have hrelease := untaken_release_le w.registry sub
    rw [round_eq w] at hset
    rw [round_eq, finish_registry, hready, hdeferred]
    omega

/-- An order was carried out, or the round has become shorter. -/
def Nearer (w w' : World) : Prop :=
  w'.totalOrders < w.totalOrders ∨ w'.totalOrders ≤ w.totalOrders ∧ w'.round < w.round

/-- What a turn comes to in which so many inputs can be handled: an order was carried out, or the round
has not become longer but for the turn that is to come if it was broken off too soon. -/
def Spent (turns : Nat) (w w' : World) : Prop :=
  w'.totalOrders < w.totalOrders ∨ w'.totalOrders ≤ w.totalOrders ∧ w'.round ≤ w.round + (2 - turns)

namespace Spent

variable {turns : Nat}

theorem of_le (horders : w'.totalOrders ≤ w.totalOrders) (hround : w'.round ≤ w.round) : Spent turns w w' :=
  .inr ⟨horders, Nat.le_trans hround (Nat.le_add_right _ _)⟩

theorem calm (h : w.Calm w') : Spent turns w w' := of_le (Grows.calm h).orders (Grows.calm h).round

theorem defer (w : World) (id : Nat) : Spent 0 w (w.defer id) := by
  refine .inr ⟨Nat.le_refl _, ?_⟩
  simp only [round_eq, World.defer, total, registry, List.length_append, List.length_singleton]
  omega

/-- After an input there is room for one more. -/
theorem step (h : Nearer w w') (h' : Spent turns w' w'') : Spent (turns + 1) w w'' := by
  unfold Nearer at h
  unfold Spent at *
  omega

end Spent

end Timeline.World

end VoiceAdmin
