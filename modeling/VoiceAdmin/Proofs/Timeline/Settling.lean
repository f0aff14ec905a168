import VoiceAdmin.Proofs.Timeline.Loads

namespace VoiceAdmin.Timeline.World

open Delivery (Registry Subscription)

variable {w w' w'' : World} {id sub : Nat} {old task : Task}

/-- A tick that is due moves on. -/
theorem lt_tickAfter {due poll now : Nat} (h : 0 < poll) (hdue : due ≤ now) : due < tickAfter due poll now := by
  have hrest := Nat.mod_lt (now - due) h
  unfold tickAfter
  split <;> omega

section Session

variable {d : Domain} {task earlier : SessionTask d} {session : Sync.Session d} {rest : Sync.Inbox d}
  {effects : List Sync.Effect}

theorem Grows.sessionEffects (hw : w.Lawful) (there : w.find? id = some (.session d earlier))
    (notifier : Notifier) (effects : List Sync.Effect) :
    Grows w (effects.foldl (sessionEffect id d notifier) w) (3 * (Sync.issued effects).length)
      ((Sync.issued effects).length + 5 * Sync.raises effects) := by
  induction effects generalizing w with
  | nil => exact refl w
  | cons effect more ih =>
    have hlawful : (sessionEffect id d notifier w effect).Lawful :=
      (Within.sessionEffects there notifier [effect]).lawful hw
    have hmore := ih hlawful (find?_sessionEffect there nofun id notifier effect)
    cases effect with
    | startPull ticket =>
      refine ((spawn w (.pull d id ticket)).trans hmore).mono ?_ ?_
      · simp only [Sync.issued, List.filterMap_cons, List.length_cons, World.orders]
        omega
      · simp only [Sync.issued, Sync.raises, List.filterMap_cons, List.length_cons, notes, List.countP_cons]
        simp
        omega
    | raise notice =>
      refine ((raise hw notifier notice).trans hmore).mono ?_ ?_
      · simp [Sync.issued]
      · simp only [Sync.issued, Sync.raises, List.filterMap_cons, List.countP_cons]
        simp
        omega
    | write line =>
      exact ((calm (.write w line)).trans hmore).mono (by simp [Sync.issued])
        (by simp [Sync.issued, Sync.raises])
    | publish => exact hmore.mono (by simp [Sync.issued]) (by simp [Sync.issued, Sync.raises])
    | stop => exact hmore.mono (by simp [Sync.issued]) (by simp [Sync.issued, Sync.raises])

/-- What a session was asked to do and has done is no order any more. -/
theorem orders_sessionNext (w : World) (task : SessionTask d) (session : Sync.Session d) (rest : Sync.Inbox d)
    (effects : List Sync.Effect) :
    orders w.now (.session d (w.sessionNext task session rest effects)) + (w.sessionInbox task).asked ≤
      orders w.now (.session d task) + rest.asked := by
  have hlater : task.nextTick ≤ w.now → task.nextTick < tickAfter task.nextTick task.poll w.now :=
    lt_tickAfter task.polls
  unfold sessionNext Sync.Inbox.asked sessionInbox orders
  by_cases hdue : task.nextTick ≤ w.now
  · have := hlater hdue
    cases hrest : rest.tickDue <;> simp [hdue] <;> omega
  · simp only [hdue, decide_false, Bool.false_and, Bool.false_eq_true, if_false, Bool.toNat_false]
    omega

theorem round_setSubscription (hw : w.Lawful) (sub : Nat) {s : Subscription}
    (h : s.pending.length ≤ (w.subscription sub).pending.length) :
    (w.setSubscription sub s).round + 6 * (w.subscription sub).pending.length =
      w.round + 6 * s.pending.length := by
  have huntaken : untaken (w.registry.update sub fun _ => s) + (w.subscription sub).pending.length =
      untaken w.registry + s.pending.length := by
    cases hf : w.registry.find? sub with
    | some old =>
      have hsub : w.subscription sub = old := by rw [World.subscription, hf]; rfl
      exact hsub ▸ untaken_update w.registry hw.registry.distinct hf
    | none =>
      have hempty : (w.subscription sub).pending.length = 0 := by rw [World.subscription, hf]; rfl
      have hsame : w.registry.update sub (fun _ => s) = w.registry := by
        rw [Registry.find?, Option.map_eq_none_iff, List.find?_eq_none] at hf
        have hmembers : w.registry.members.map (fun m =>
            if m.id = sub then { m with subscription := s } else m) = w.registry.members :=
          (List.map_congr_left fun m hm => if_neg (by simpa using hf m hm)).trans (List.map_id _)
        rw [Registry.update, hmembers]
      rw [hsame]
      omega
  rw [round_eq, round_eq]
  show 6 * untaken (w.registry.update sub fun _ => s) + 2 * w.total notes + w.ready.length +
    2 * w.deferred.length + _ = _
  omega

/-- What becomes of the world while a session handles an input. -/
theorem Grows.sessionAfter (hw : w.Lawful) (there : w.find? id = some (.session d earlier))
    (hstep : task.session.step (w.sessionInbox task) = some (session, rest, effects)) :
    Grows (w.setSubscription task.subscription rest.subscription) (w.sessionAfter id task rest effects)
      (3 * (Sync.issued effects).length) ((Sync.issued effects).length + 5 * Sync.raises effects) := by
  obtain ⟨input, htakes, -⟩ := Sync.Session.step_takes hstep
  have hset : w.Aside (w.setSubscription task.subscription rest.subscription) :=
    .setSubscription htakes.subscription
  exact sessionEffects (hw.aside hset) ((find?_congr hset.tasks id).trans there) task.notifier effects

theorem orders_session (hw : w.Lawful) (there : w.find? id = some (.session d earlier))
    (hstep : task.session.step (w.sessionInbox task) = some (session, rest, effects)) :
    ((w.sessionAfter id task rest effects).setTask id
        (.session d (w.sessionNext task session rest effects))).totalOrders + (w.sessionInbox task).asked ≤
      (w.setTask id (.session d task)).totalOrders + rest.asked + 3 * (Sync.issued effects).length := by
  obtain ⟨hwithin, there'⟩ := Within.sessionAfter there hstep
  have hgrows := Grows.sessionAfter hw there hstep
  have hnow : (w.sessionAfter id task rest effects).now = w.now := hgrows.now
  have hbefore := orders_setTask hw there (.session d task)
  have hafter := orders_setTask (hwithin.lawful hw) there' (.session d (w.sessionNext task session rest effects))
  have hnext := orders_sessionNext w task session rest effects
  have hsame : (w.setSubscription task.subscription rest.subscription).totalOrders = w.totalOrders := rfl
  have hgrown := hgrows.orders
  rw [hnow] at hafter
  omega

theorem round_session (hw : w.Lawful) (there : w.find? id = some (.session d earlier))
    (hstep : task.session.step (w.sessionInbox task) = some (session, rest, effects)) :
    ((w.sessionAfter id task rest effects).setTask id
        (.session d (w.sessionNext task session rest effects))).round +
        2 * task.session.load (w.sessionInbox task) ≤
      (w.setTask id (.session d task)).round + 2 * session.load rest +
        ((Sync.issued effects).length + 5 * Sync.raises effects) := by
  obtain ⟨input, htakes, -⟩ := Sync.Session.step_takes hstep
  obtain ⟨hwithin, there'⟩ := Within.sessionAfter there hstep
  have hbefore := round_setTask hw there (.session d task)
  have hafter := round_setTask (hwithin.lawful hw) there'
    (.session d (w.sessionNext task session rest effects))
  have htaken := round_setSubscription hw task.subscription htakes.pending_le
  have hgrown := (Grows.sessionAfter hw there hstep).round
  have hnotes : notes (.session d task) = task.session.listening.toNat := rfl
  have hnotes' : notes (.session d (w.sessionNext task session rest effects)) = session.listening.toNat := rfl
  have hinbox : (w.sessionInbox task).subscription = w.subscription task.subscription := rfl
  simp only [Sync.Session.load, hinbox]
  omega

/-- A session that goes on is nearer to its rest. -/
theorem session_nearer (hw : w.Lawful) (there : w.find? id = some (.session d earlier))
    (hstep : task.session.step (w.sessionInbox task) = some (session, rest, effects)) :
    Nearer (w.setTask id (.session d task))
      ((w.sessionAfter id task rest effects).setTask id
        (.session d (w.sessionNext task session rest effects))) := by
  have horders := orders_session hw there hstep
  have hround := round_session hw there hstep
  rcases Sync.Session.step_load hstep with hasked | ⟨hasked, hissued, hload⟩
  · exact .inl (by omega)
  · rw [hissued, List.length_nil] at horders hround
    exact .inr ⟨by omega, by omega⟩

theorem runSession_spent (turns : Nat) (task : SessionTask d) (hw : w.Lawful)
    (there : w.find? id = some (.session d earlier)) :
    Spent turns (w.setTask id (.session d task)) (runSession id d turns task w) := by
  induction turns generalizing task w with
  | zero => exact .defer _ id
  | succ more ih =>
    cases hstep : task.session.step (w.sessionInbox task) with
    | none =>
      rw [runSession_waits hstep]
      exact .calm (.setAlarm _ _ _)
    | some taken =>
      obtain ⟨session, rest, effects⟩ := taken
      obtain ⟨hwithin, there'⟩ := Within.sessionAfter there hstep
      refine .step (session_nearer hw there hstep) ?_
      rw [runSession_goes hstep]
      split
      · obtain ⟨horders, hround⟩ := finish_le (hwithin.lawful hw) there' task.subscription
          (.session d (w.sessionNext task session rest effects))
        exact .of_le horders hround
      · exact ih _ (hwithin.lawful hw) there'

end Session

section Center

variable {task earlier : CenterTask} {center : Alerts.Center} {rest : Alerts.Inbox}
  {effects : List Alerts.Effect}

/-- A center that goes on is nearer to its rest. -/
theorem center_nearer (hw : w.Lawful) (there : w.find? id = some (.center earlier))
    (hstep : task.center.step w.now (w.centerInbox task) = .ok (some (center, rest, effects))) :
    Nearer (w.setTask id (.center task))
      ((w.centerAfter id task rest effects).setTask id (.center (centerNext task center rest effects))) := by
  obtain ⟨first, input, handled, -, htaken, -⟩ := Alerts.Center.step_taken hstep
  have haside : w.Aside (w.centerAfter id task rest effects) := .centerAfter hstep
  have hlawful := hw.aside haside
  have there' := (find?_congr haside.tasks id).trans there
  have hcalm : Grows (w.setSubscription task.subscription rest.subscription)
      (w.centerAfter id task rest effects) 0 0 :=
    .calm ((Calm.centerEffects _ effects).trans (.clearAlarm _ id))
  have hbefore := round_setTask hw there (.center task)
  have hafter := round_setTask hlawful there' (.center (centerNext task center rest effects))
  have htaken := round_setSubscription hw task.subscription htaken.pending_le
  have hround := hcalm.round
  have hload := Alerts.Center.step_load hstep
  have hnotes : notes (.center task) =
      2 * task.messages.length + task.center.queue.entries.length + task.center.listening.toNat := rfl
  have hnotes' : notes (.center (centerNext task center rest effects)) =
      2 * rest.messages.length + center.queue.entries.length + center.listening.toNat := rfl
  have hinbox : w.centerInbox task = ⟨task.messages, w.subscription task.subscription⟩ := rfl
  simp only [Alerts.Center.load, hinbox] at hload
  refine .inr ⟨?_, by omega⟩
  -- A center carries out no orders.
  have hsame : (w.setSubscription task.subscription rest.subscription).totalOrders = w.totalOrders := rfl
  have hset := orders_setTask hw there (.center task)
  have hset' := orders_setTask hlawful there' (.center (centerNext task center rest effects))
  have horders := hcalm.orders
  have hnone : ∀ now (c : CenterTask), orders now (.center c) = 0 := fun _ _ => rfl
  rw [hnone, hnone] at hset hset'
  omega

theorem runCenter_spent (turns : Nat) (task : CenterTask) (hw : w.Lawful)
    (there : w.find? id = some (.center earlier)) :
    Spent turns (w.setTask id (.center task)) (runCenter id turns task w) := by
  induction turns generalizing task w with
  | zero => exact .defer _ id
  | succ more ih =>
    cases hstep : task.center.step w.now (w.centerInbox task) with
    | error panic =>
      obtain ⟨horders, hround⟩ := finish_le hw there task.subscription (.center task)
      rw [runCenter_breaks hstep]
      exact .of_le horders hround
    | ok taken =>
      cases taken with
      | none =>
        rw [runCenter_waits hstep]
        exact .calm (.setTimer _ _ _)
      | some taken =>
        obtain ⟨center, rest, effects⟩ := taken
        have haside : w.Aside (w.centerAfter id task rest effects) := .centerAfter hstep
        have there' := (find?_congr haside.tasks id).trans there
        refine .step (center_nearer hw there hstep) ?_
        rw [runCenter_goes hstep]
        split
        · obtain ⟨horders, hround⟩ := finish_le (hw.aside haside) there' task.subscription
            (.center (centerNext task center rest effects))
          exact .of_le horders hround
        · exact ih _ (hw.aside haside) there'

end Center

section Others

variable {notifier : Notifier} {d : Domain} {owner : Nat}

theorem totalOrders_aside (h : w.Aside w') : w'.totalOrders = w.totalOrders := by
  rw [totalOrders_eq, totalOrders_eq, h.now, total_congr h.tasks]

theorem waits_orders (hw : w.Lawful) (there : w.find? id = some old) (task : Task) (time : Nat) :
    ((w.setTask id task).setAlarm id time).totalOrders + orders w.now old =
      w.totalOrders + orders w.now task := by
  rw [totalOrders_aside (.calm (.setAlarm _ _ _))]
  exact orders_setTask hw there task

/-- The end of a pull is one thing more for its session to handle. -/
theorem deliver_orders (hw : w.Lawful) (owner : Nat) (result : Sync.PullEnd d) :
    (w.deliver d owner result).totalOrders ≤ w.totalOrders + 1 := by
  unfold World.deliver
  split
  · rename_i e task there
    split
    · rename_i h
      subst h
      have hset := orders_setTask hw there (.session d { task with finished := task.finished ++ [result] })
      have hwake := (Grows.wake (w.setTask owner (.session d { task with finished := task.finished ++ [result] }))
        owner).orders
      simp only [orders, List.length_append, List.length_singleton] at hset
      dsimp only
      omega
    · exact Nat.le_succ _
  · exact Nat.le_succ _

theorem Grows.ask (hw : w.Lawful) (notifier : Notifier) (request : Request) :
    Grows w (w.ask notifier request).2 2 5 := by
  unfold World.ask
  split
  · exact (spawn w _).mono (Nat.le_refl _) (by simp [notes])
  · exact (raise hw _ _).mono (Nat.zero_le _) (Nat.le_refl _)

theorem perform_orders (hw : w.Lawful) (notifier : Notifier) (act : Console.Act) :
    (w.perform notifier act).totalOrders ≤ w.totalOrders + 2 := by
  cases act with
  | say text => exact Nat.le_add_right _ 2
  | ask request => exact (Grows.ask hw notifier request).orders
  | addFrequency band typed =>
    simp only [World.perform]
    split
    · exact (Grows.ask hw notifier _).orders
    · exact Nat.le_add_right _ 2
  | setAvailable available =>
    have hset : w.Aside (w.perform notifier (.setAvailable available)) :=
      (Aside.mapServer (.refl _)).trans (.calm (.writeAll _ _))
    exact Nat.le_trans (Nat.le_of_eq (totalOrders_aside hset)) (Nat.le_add_right _ 2)
  | announce notice =>
    have hasked := Grows.ask (hw.aside (.calm (.freshId w))) notifier (.notify (notice.withId w.freshId.1))
    exact hasked.orders
  | pause ms => exact Nat.le_add_right _ 2

/-- Every act of a script is one of its orders, or comes to less. -/
theorem runScript_orders (acts : List Console.Act) {earlier : List Console.Act} {own : Notifier}
    (hw : w.Lawful) (there : w.find? id = some (.script earlier own)) (notifier : Notifier) :
    (runScript id notifier acts w).totalOrders + orders w.now (.script earlier own) ≤
      w.totalOrders + 3 * acts.length := by
  induction acts generalizing w with
  | nil => exact Nat.le_of_eq (orders_remove hw there)
  | cons act acts ih =>
    rw [List.length_cons]
    unfold World.runScript
    split
    · rename_i heq
      cases heq
    · rename_i heq
      cases heq
      split
      · have hmore := ih hw there
        omega
      · refine Nat.le_trans (Nat.le_of_eq (waits_orders hw there _ _)) ?_
        simp only [orders]
        omega
    · rename_i heq
      cases heq
      have hperform := perform_orders hw notifier act
      have hmore := ih ((Within.perform _ notifier act).lawful hw) (find?_perform there notifier act)
      simp only [orders] at hmore ⊢
      omega

theorem remove_orders_lt (hw : w.Lawful) (there : w.find? id = some old) (h : 0 < orders w.now old) :
    (w.remove id).totalOrders < w.totalOrders := by
  have := orders_remove hw there
  omega

theorem waits_orders_lt (hw : w.Lawful) (there : w.find? id = some old)
    (h : orders w.now task < orders w.now old) (time : Nat) :
    ((w.setTask id task).setAlarm id time).totalOrders < w.totalOrders := by
  have := waits_orders hw there task time
  omega

theorem remove_deliver_orders {result : Sync.PullEnd d} (hw : w.Lawful) (there : w.find? id = some old)
    (h : 2 ≤ orders w.now old) : ((w.remove id).deliver d owner result).totalOrders < w.totalOrders := by
  have hremove := orders_remove hw there
  have hdeliver := deliver_orders (remove_eq w id ▸ hw.without [id]) owner result
  omega

theorem run_pull_orders {ticket : Sync.Ticket} (hw : w.Lawful)
    (there : w.find? id = some (.pull d owner ticket)) : (w.run id).totalOrders < w.totalOrders := by
  let v : World := { w with wire := (w.wire.fetch d).2.2 }
  have hv : v.Lawful := by
    have hfetched : w.Passes [.fetch d] v := by
      simp only [v, fetch_wire]
      exact .step (.fetch w d)
    exact hfetched.lawful hw
  have there' : v.find? id = some (.pull d owner ticket) := there
  have hsame : v.totalOrders = w.totalOrders := rfl
  simp only [World.run, there, World.runPull]
  rw [← hsame]
  split
  · exact remove_deliver_orders hv there' (Nat.le_succ _)
  · exact waits_orders_lt hv there' (Nat.lt_succ_self _) _

theorem run_call_orders {command : Command} (hw : w.Lawful)
    (there : w.find? id = some (.command command notifier)) : (w.run id).totalOrders < w.totalOrders := by
  have hv : (w.sent command).Lawful := (Passes.step (.beside w command)).lawful hw
  have there' : (w.sent command).find? id = some (.command command notifier) := there
  have hsame : (w.sent command).totalOrders = w.totalOrders := rfl
  have hremove := remove_orders_lt hv there' (Nat.zero_lt_succ _)
  rw [run_call there, ← hsame]
  split
  · rw [totalOrders_aside (.apply _ _)]
    exact hremove
  · exact waits_orders_lt hv there' (Nat.lt_succ_self _) _
  · have hlawful : ((w.sent command).remove id).Lawful := remove_eq (w.sent command) id ▸ hv.without [id]
    exact Nat.lt_of_le_of_lt (Grows.raise (hlawful.aside (.calm (.write _ _))) notifier _).orders hremove

/-- A turn carries out an order, or the round does not become longer. -/
theorem run_spent (hw : w.Lawful) (id : Nat) : Spent turnLimit w (w.run id) := by
  have hsame : ∀ {old : Task} {v : World}, w.find? id = some old →
      Spent turnLimit (w.setTask id old) v → Spent turnLimit w v := by
    intro old v there h
    have horders := orders_setTask hw there old
    have hround := round_setTask hw there old
    unfold Spent at *
    omega
  cases there : w.find? id with
  | none =>
    rw [run_gone there]
    exact .of_le (Nat.le_refl _) (Nat.le_refl _)
  | some task =>
    cases task with
    | session d task =>
      simp only [World.run, there]
      exact hsame there (runSession_spent turnLimit task hw there)
    | center task =>
      simp only [World.run, there]
      exact hsame there (runCenter_spent turnLimit task hw there)
    | pull d owner ticket => exact .inl (run_pull_orders hw there)
    | answer d owner result =>
      simp only [World.run, there]
      exact .inl (remove_deliver_orders hw there (Nat.le_refl _))
    | command command notifier => exact .inl (run_call_orders hw there)
    | delayed command =>
      simp only [World.run, there]
      rw [Spent, totalOrders_aside (.apply _ _)]
      exact .inl (remove_orders_lt hw there (Nat.zero_lt_succ _))
    | later delay push =>
      refine .inl ?_
      simp only [World.run, there]
      split
      · rw [totalOrders_aside (.emit _ _)]
        exact remove_orders_lt hw there (Nat.zero_lt_succ _)
      · exact waits_orders_lt hw there (Nat.lt_succ_self _) _
    | emission push =>
      simp only [World.run, there]
      rw [Spent, totalOrders_aside (.emit _ _)]
      exact .inl (remove_orders_lt hw there (Nat.zero_lt_succ _))
    | script acts notifier =>
      have hscript := runScript_orders acts hw there notifier
      simp only [World.run, there]
      simp only [orders] at hscript
      exact .inl (by omega)
    | dropped sub =>
      obtain ⟨horders, hround⟩ := finish_le hw there sub (.dropped sub)
      rw [run_dropped there]
      exact hsame there (.of_le horders hround)

end Others

/-- No task can go on. -/
def Idle (w : World) : Prop := w.ready = [] ∧ w.deferred = []

/-- Whoever goes on brings the world nearer to its rest. -/
theorem settleWithin_cases (hw : w.Lawful) (turns : Nat) :
    w.Idle ∧ settleWithin (turns + 1) w = w ∨
      ∃ v : World, v.Lawful ∧ Nearer w v ∧ settleWithin (turns + 1) w = settleWithin turns v := by
  rw [settleWithin.eq_def]
  dsimp only
  split
  · exact .inl ⟨⟨‹_›, ‹_›⟩, rfl⟩
  · rename_i hready hmore
    refine .inr ⟨{ w with ready := w.deferred, deferred := [] }, { hw with }, .inr ⟨Nat.le_refl _, ?_⟩, rfl⟩
    have hpos : 0 < w.deferred.length := List.length_pos_iff.mpr hmore
    simp only [round_eq, total, registry, hready, List.length_nil]
    omega
  · rename_i id line hready
    have hw' : Lawful { w with ready := line } := { hw with }
    refine .inr ⟨_, (Within.run _ id).lawful hw', ?_, rfl⟩
    have hround : round { w with ready := line } + 1 = w.round := by
      simp only [round_eq, total, registry, hready, List.length_cons]
      omega
    have horders : totalOrders { w with ready := line } = w.totalOrders := rfl
    have hspent := run_spent hw' id
    unfold Spent turnLimit at hspent
    unfold Nearer
    omega

theorem settleWithin_orders_le (hw : w.Lawful) (turns : Nat) :
    (settleWithin turns w).totalOrders ≤ w.totalOrders := by
  induction turns generalizing w with
  | zero => exact Nat.le_refl _
  | succ turns ih =>
    rcases settleWithin_cases hw turns with ⟨-, heq⟩ | ⟨v, hv, hnearer, heq⟩
    · exact Nat.le_of_eq (congrArg totalOrders heq)
    · have hmore := ih hv
      unfold Nearer at hnearer
      rw [heq]
      omega

/-- In a round an order is carried out if there still is one. -/
theorem settleWithin_rests (hw : w.Lawful) {turns : Nat} (hturns : w.round ≤ turns) :
    (settleWithin turns w).Idle ∨ (settleWithin turns w).totalOrders < w.totalOrders := by
  induction turns generalizing w with
  | zero =>
    rw [round_eq] at hturns
    refine .inl ⟨List.length_eq_zero_iff.mp ?_, List.length_eq_zero_iff.mp ?_⟩ <;> (rw [settleWithin]; omega)
  | succ turns ih =>
    rcases settleWithin_cases hw turns with ⟨hidle, heq⟩ | ⟨v, hv, hnearer, heq⟩
    · exact .inl (by rw [heq]; exact hidle)
    · rw [heq]
      rcases hnearer with hless | ⟨hle, hround⟩
      · exact .inr (Nat.lt_of_le_of_lt (settleWithin_orders_le hv turns) hless)
      · exact (ih hv (by omega)).imp_right fun hless => Nat.lt_of_lt_of_le hless hle

theorem settleWithin_idle (h : w.Idle) (turns : Nat) : settleWithin turns w = w := by
  cases turns with
  | zero => rfl
  | succ turns =>
    rw [settleWithin.eq_def]
    simp only [h.1, h.2]

theorem settleRounds_of_idle (h : w.Idle) (rounds : Nat) : settleRounds rounds w = w := by
  induction rounds with
  | zero => rfl
  | succ rounds ih => rw [settleRounds, settleWithin_idle h, ih]

theorem settleRounds_idle (hw : w.Lawful) {rounds : Nat} (h : w.totalOrders < rounds) :
    (settleRounds rounds w).Idle := by
  induction rounds generalizing w with
  | zero => exact absurd h (Nat.not_lt_zero _)
  | succ rounds ih =>
    rw [settleRounds]
    have hlawful : (settleWithin w.round w).Lawful := (Goes.settleWithin w.round w).lawful hw
    rcases settleWithin_rests hw (Nat.le_refl _) with hidle | hless
    · rw [settleRounds_of_idle hidle]
      exact hidle
    · exact ih hlawful (by omega)

/-- Within an instant everything comes to rest, and it is let run until it does. -/
theorem settle_idle (hw : w.Lawful) : w.settle.Idle := settleRounds_idle hw (Nat.lt_succ_self _)

end VoiceAdmin.Timeline.World
