import VoiceAdmin.Proofs.Alerts.Center
import VoiceAdmin.Proofs.Sync.Handling
import VoiceAdmin.Proofs.Timeline.Frames

namespace VoiceAdmin

theorem Sync.Inbox.Takes.subscription {d : Domain} {inbox rest : Sync.Inbox d} {listening : Bool}
    {input : Sync.Input d} (h : inbox.Takes listening input rest) :
    inbox.subscription.Continues rest.subscription := by
  cases h with
  | push => exact .pending _ _
  | _ => exact .refl _

theorem Alerts.Inbox.Taken.subscription {inbox rest : Alerts.Inbox} {listening due : Bool}
    {input : Alerts.Input} (h : inbox.Taken listening due input rest) :
    inbox.subscription.Continues rest.subscription := by
  cases h with
  | push _ _ given =>
    have hreceived := Delivery.Subscription.Continues.receive inbox.subscription
    rwa [given] at hreceived
  | _ => exact .refl _

namespace Timeline.World

variable {w w' w'' : World} {id sub : Nat} {log : List Deed}

theorem Within.finish (holds : w.Holds id sub) : Within (Deed.Works id) w (w.finish id sub) :=
  happens (.finish holds) (by simp [Deed.Works])

section Session

variable {d : Domain} {task old : SessionTask d} {session : Sync.Session d} {rest : Sync.Inbox d}
  {effects : List Sync.Effect}

theorem runSession_waits (h : task.session.step (w.sessionInbox task) = none) (more : Nat) :
    runSession id d (more + 1) task w = (w.setTask id (.session d task)).setAlarm id task.nextTick := by
  simp only [World.runSession, h]

/-- The world in which a session has handled an input. -/
def sessionAfter (w : World) (id : Nat) (task : SessionTask d) (rest : Sync.Inbox d)
    (effects : List Sync.Effect) : World :=
  effects.foldl (sessionEffect id d task.notifier) (w.setSubscription task.subscription rest.subscription)

theorem runSession_goes (h : task.session.step (w.sessionInbox task) = some (session, rest, effects))
    (more : Nat) :
    runSession id d (more + 1) task w =
      if effects.contains .stop then (w.sessionAfter id task rest effects).finish id task.subscription
      else runSession id d more (w.sessionNext task session rest effects)
        (w.sessionAfter id task rest effects) := by
  simp only [World.runSession, h]
  rfl

theorem Within.sessionAfter (there : w.find? id = some (.session d old))
    (hstep : task.session.step (w.sessionInbox task) = some (session, rest, effects)) :
    Within Deed.IsMessage w (w.sessionAfter id task rest effects) ∧
      (w.sessionAfter id task rest effects).find? id = some (.session d old) := by
  obtain ⟨input, htakes, -⟩ := Sync.Session.step_takes hstep
  have hset : w.Aside (w.setSubscription task.subscription rest.subscription) :=
    .setSubscription htakes.subscription
  have there := (find?_congr hset.tasks id).trans there
  exact ⟨(aside hset).trans (sessionEffects there task.notifier effects),
    find?_sessionEffects there nofun id task.notifier effects⟩

theorem Within.ownSession (there : w.find? id = some (.session d old))
    (holds : task.subscription = old.subscription)
    (told : .unmount ∈ task.controls → .unmount ∈ old.controls) :
    Within (Deed.Works id) w (w.setTask id (.session d task)) := by
  refine happens (.own there ⟨congrArg some holds, rfl, rfl, rfl, rfl⟩ fun h => ?_) (by simp [Deed.Works])
  simpa [Task.told] using told (by simpa [Task.told] using h)

/-- A session goes on with its own work until it waits, has come to the end of its turn or stops. -/
theorem Within.runSession (turns : Nat) (there : w.find? id = some (.session d old))
    (holds : task.subscription = old.subscription)
    (told : .unmount ∈ task.controls → .unmount ∈ old.controls) :
    Within (Deed.Works id) w (runSession id d turns task w) := by
  induction turns generalizing task w with
  | zero => exact (ownSession there holds told).trans (aside (.defer _ _))
  | succ more ih =>
    cases hstep : task.session.step (w.sessionInbox task) with
    | none =>
      rw [runSession_waits hstep]
      exact (ownSession there holds told).trans (calm (.setAlarm _ _ _))
    | some taken =>
      obtain ⟨session, rest, effects⟩ := taken
      obtain ⟨hafter, there'⟩ := sessionAfter there hstep
      have hafter : Within (Deed.Works id) w _ := hafter.mono fun _ => Deed.works_of_isMessage
      rw [runSession_goes hstep]
      split
      · exact hafter.trans (finish ⟨_, there', congrArg some holds.symm⟩)
      · obtain ⟨input, htakes, -⟩ := Sync.Session.step_takes hstep
        have hnext : (w.sessionNext task session rest effects).subscription = old.subscription := holds
        exact hafter.trans (ih there' hnext fun h => told (htakes.controls h))

end Session

section Center

variable {task old : CenterTask} {center : Alerts.Center} {rest : Alerts.Inbox}
  {effects : List Alerts.Effect}

/-- The world in which a center has handled an input. -/
def centerAfter (w : World) (id : Nat) (task : CenterTask) (rest : Alerts.Inbox)
    (effects : List Alerts.Effect) : World :=
  ((w.setSubscription task.subscription rest.subscription).centerEffects effects).clearAlarm id

theorem runCenter_breaks {panic : Panic} (h : task.center.step w.now (w.centerInbox task) = .error panic)
    (more : Nat) : runCenter id (more + 1) task w = w.finish id task.subscription := by
  simp only [World.runCenter, h]

theorem runCenter_waits (h : task.center.step w.now (w.centerInbox task) = .ok none) (more : Nat) :
    runCenter id (more + 1) task w = (w.setTask id (.center task)).setTimer id task.center := by
  simp only [World.runCenter, h]

theorem runCenter_goes (h : task.center.step w.now (w.centerInbox task) = .ok (some (center, rest, effects)))
    (more : Nat) :
    runCenter id (more + 1) task w =
      if effects.contains .stop then (w.centerAfter id task rest effects).finish id task.subscription
      else runCenter id more (centerNext task center rest effects) (w.centerAfter id task rest effects) := by
  simp only [World.runCenter, h]
  rfl

theorem Calm.centerEffects (w : World) (effects : List Alerts.Effect) : w.Calm (w.centerEffects effects) :=
  writeAll w _

theorem Aside.centerAfter (h : task.center.step w.now (w.centerInbox task) = .ok (some (center, rest, effects))) :
    w.Aside (w.centerAfter id task rest effects) := by
  obtain ⟨first, input, handled, -, htaken, -⟩ := Alerts.Center.step_taken h
  have hset : w.Aside (w.setSubscription task.subscription rest.subscription) :=
    setSubscription htaken.subscription
  exact hset.trans (calm ((Calm.centerEffects _ effects).trans (.clearAlarm _ id)))

theorem Within.ownCenter (there : w.find? id = some (.center old))
    (holds : task.subscription = old.subscription)
    (told : .shutdown ∈ task.messages → .shutdown ∈ old.messages) :
    Within (Deed.Works id) w (w.setTask id (.center task)) := by
  refine happens (.own there ⟨congrArg some holds, rfl, rfl, rfl, rfl⟩ fun h => ?_) (by simp [Deed.Works])
  simpa [Task.told] using told (by simpa [Task.told] using h)

/-- A center goes on with its own work until it waits, has come to the end of its turn, stops or breaks
off. -/
theorem Within.runCenter (turns : Nat) (there : w.find? id = some (.center old))
    (holds : task.subscription = old.subscription)
    (told : .shutdown ∈ task.messages → .shutdown ∈ old.messages) :
    Within (Deed.Works id) w (runCenter id turns task w) := by
  induction turns generalizing task w with
  | zero => exact (ownCenter there holds told).trans (aside (.defer _ _))
  | succ more ih =>
    cases hstep : task.center.step w.now (w.centerInbox task) with
    | error panic =>
      rw [runCenter_breaks hstep]
      exact finish ⟨_, there, congrArg some holds.symm⟩
    | ok taken =>
      cases taken with
      | none =>
        rw [runCenter_waits hstep]
        exact (ownCenter there holds told).trans (calm (.setTimer _ _ _))
      | some taken =>
        obtain ⟨center, rest, effects⟩ := taken
        have hafter : w.Aside (w.centerAfter id task rest effects) := .centerAfter hstep
        have there' := (find?_congr hafter.tasks id).trans there
        rw [runCenter_goes hstep]
        split
        · exact (aside hafter).trans (finish ⟨_, there', congrArg some holds.symm⟩)
        · obtain ⟨first, input, handled, -, htaken, -⟩ := Alerts.Center.step_taken hstep
          have hnext : (centerNext task center rest effects).subscription = old.subscription := holds
          exact (aside hafter).trans (ih there' hnext fun h => told (htaken.messages h))

end Center

section Others

variable {command : Command} {notifier : Notifier} {d : Domain} {owner : Nat} {ticket : Sync.Ticket}

/-- A task goes on to wait for its alarm. -/
theorem Within.waits {old task : Task} (there : w.find? id = some old) (stays : old.Stays task)
    (told : task.told = false) (time : Nat) :
    Within (Deed.Works id) w ((w.setTask id task).setAlarm id time) := by
  have hown : Within (Deed.Works id) w (w.setTask id task) :=
    happens (.own there stays fun h => by rw [told] at h; cases h) (by simp [Deed.Works])
  exact hown.trans (calm (.setAlarm _ _ _))

theorem Within.runScript {own : Notifier} {acts : List Console.Act}
    (there : ∃ earlier, w.find? id = some (.script earlier own)) :
    Within (Deed.Works id) w (runScript id notifier acts w) := by
  -- The table shows the script as it was when its turn began, until the script waits or is done.
  obtain ⟨earlier, there⟩ := there
  induction acts generalizing w with
  | nil => exact plain (.step (.remove there rfl rfl))
  | cons act acts ih =>
    unfold World.runScript
    split
    · rename_i heq
      cases heq
    · rename_i heq
      cases heq
      split
      · exact ih there
      · exact waits there (by exact ⟨rfl, rfl, rfl, rfl, rfl⟩) (by rfl) _
    · rename_i heq
      cases heq
      exact ((perform _ notifier act).mono fun _ => Deed.works_of_isMessage).trans
        (ih (find?_perform there notifier act))

/-- What is replaced and then ends has ended. -/
theorem setTask_remove (w : World) (id : Nat) (task : Task) : (w.setTask id task).remove id = w.remove id := by
  have htasks : (w.tasks.map fun e => if e.1 = id then (id, task) else e).filter (fun e => e.1 ≠ id) =
      w.tasks.filter fun e => e.1 ≠ id := by
    induction w.tasks with
    | nil => rfl
    | cons e rest ih =>
      rw [List.map_cons]
      by_cases he : e.1 = id
      · rw [if_pos he, List.filter_cons_of_neg (by simp), List.filter_cons_of_neg (by simpa using he), ih]
      · rw [if_neg he, List.filter_cons_of_pos (by simpa using he),
          List.filter_cons_of_pos (by simpa using he), ih]
  simp only [World.remove, World.setTask, World.clearAlarm, htasks]

/-- What the turn of a call comes to: its command was passed on, and is carried out at once or later,
or its failure is announced. -/
theorem run_call (there : w.find? id = some (.command command notifier)) :
    w.run id = match (w.wire.execute command).1 with
      | .ok 0 => ((w.sent command).remove id).apply command
      | .ok delay => ((w.sent command).setTask id (.delayed command)).setAlarm id (w.now + delay)
      | .error e =>
        (((w.sent command).remove id).write
          (.warning (command.describe ++ " failed: " ++ e.message))).raise notifier
            (command.failure e) := by
  have hsent : { w with wire := (w.wire.execute command).2 } = w.sent command := by rw [execute_wire, sent]
  cases hexecute : (w.wire.execute command).1 with
  | error e => simp only [World.run, there, World.runCommand, hsent, hexecute]
  | ok delay =>
    cases delay with
    | zero | succ delay => simp only [World.run, there, World.runCommand, hsent, hexecute]

/-- A call that is sent and done with. -/
theorem Passes.sent (there : w.find? id = some (.command command notifier)) :
    w.Passes [.call id command notifier] ((w.sent command).remove id) := by
  have hleft : ((w.sent command).setTask id (.delayed command)).find? id = some (.delayed command) :=
    find?_setTask_self (w := w.sent command) there _
  have hremoved := (Passes.step (.call there)).trans (.step (.remove hleft rfl rfl))
  rwa [setTask_remove] at hremoved

/-- A call is sent in its turn. If it fails that is announced, and nothing else. -/
theorem Passes.run_call (there : w.find? id = some (.command command notifier)) :
    ∃ log, w.Passes (.call id command notifier :: log) (w.run id) ∧ (∀ deed ∈ log, deed.IsMessage) ∧
      ∀ delay, (w.wire.execute command).1 = .ok delay → log = [] := by
  rw [World.run_call there]
  split
  · exact ⟨[], (sent there).trans (.aside (.apply _ _)), nofun, fun _ _ => rfl⟩
  · exact ⟨[], (step (.call there)).trans (.aside (.calm (.setAlarm _ _ _))), nofun, fun _ _ => rfl⟩
  · rename_i failed
    obtain ⟨log, hp, hall⟩ := (Within.calm (.write _ _)).trans (Within.raise _ notifier (command.failure _))
    exact ⟨log, (sent there).trans hp, hall, fun delay h => by rw [failed] at h; cases h⟩

/-- A command that was on its way is carried out. -/
theorem Passes.run_delayed (there : w.find? id = some (.delayed command)) : w.Passes [] (w.run id) := by
  simp only [World.run, there]
  exact (step (.remove there rfl rfl)).trans (.aside (.apply _ _))

theorem run_gone (h : w.find? id = none) : w.run id = w := by
  unfold World.run
  rw [h]

theorem run_dropped (h : w.find? id = some (.dropped sub)) : w.run id = w.finish id sub := by
  unfold World.run
  rw [h]

theorem Within.run_pull (there : w.find? id = some (.pull d owner ticket)) :
    Within (Deed.By id) w (w.run id) := by
  have hsent : Within (Deed.By id) w { w with wire := (w.wire.fetch d).2.2 } := by
    rw [fetch_wire]
    exact happens (.fetch w d) (by simp [Deed.By])
  have there' : World.find? { w with wire := (w.wire.fetch d).2.2 } id = some (.pull d owner ticket) := there
  simp only [World.run, there, World.runPull]
  refine hsent.trans ?_
  split
  · exact (plain (.step (.remove there' rfl rfl))).trans (plain (.deliver _ _ _ _))
  · exact (waits there' (by exact ⟨rfl, rfl, rfl, rfl, rfl⟩) (by rfl) _).mono fun _ => Deed.by_of_works

/-- Who neither pulls nor sends a command only does its own work and raises alerts. -/
theorem Within.run_works (hpull : ∀ d owner ticket, w.find? id ≠ some (.pull d owner ticket))
    (hcall : ∀ command notifier, w.find? id ≠ some (.command command notifier)) :
    Within (Deed.Works id) w (w.run id) := by
  have hended : ∀ {task : Task}, w.find? id = some task → task.subscription? = none →
      task.call? = none → Within (Deed.Works id) w (w.remove id) :=
    fun there free plain => .plain (.step (.remove there free plain))
  unfold World.run
  split
  · exact refl w
  · exact runSession _ ‹_› rfl fun h => h
  · exact runCenter _ ‹_› rfl fun h => h
  · exact absurd ‹_› (hpull _ _ _)
  · exact (hended ‹_› rfl rfl).trans (plain (.deliver _ _ _ _))
  · exact absurd ‹_› (hcall _ _)
  · exact (hended ‹_› rfl rfl).trans (aside (.apply _ _))
  · rename_i there
    split
    · exact (hended there rfl rfl).trans (aside (.emit _ _))
    · exact waits there (by exact ⟨rfl, rfl, rfl, rfl, rfl⟩) (by rfl) _
  · exact (hended ‹_› rfl rfl).trans (aside (.emit _ _))
  · exact runScript ⟨_, ‹_›⟩
  · exact finish ⟨_, ‹_›, rfl⟩

/-- A turn of a task. -/
theorem Within.run (w : World) (id : Nat) : Within (Deed.By id) w (w.run id) := by
  by_cases hpull : ∀ d owner ticket, w.find? id ≠ some (.pull d owner ticket)
  · by_cases hcall : ∀ command notifier, w.find? id ≠ some (.command command notifier)
    · exact (run_works hpull hcall).mono fun _ => Deed.by_of_works
    · simp only [not_forall, not_not] at hcall
      obtain ⟨command, notifier, there⟩ := hcall
      obtain ⟨log, hp, hall, -⟩ := Passes.run_call there
      refine ⟨_, hp, List.forall_mem_cons.mpr ⟨rfl, fun deed hd => ?_⟩⟩
      exact Deed.by_of_works (Deed.works_of_isMessage (hall deed hd))
  · simp only [not_forall, not_not] at hpull
    obtain ⟨d, owner, ticket, there⟩ := hpull
    exact run_pull there

/-- Only a pull fetches anything in its turn. -/
theorem run_fetches (h : (w.run id).wire.fetches ≠ w.wire.fetches) :
    ∃ d owner ticket, w.find? id = some (.pull d owner ticket) := by
  by_contra hpull
  have hpull : ∀ d owner ticket, w.find? id ≠ some (.pull d owner ticket) := by simpa using hpull
  refine h ?_
  by_cases hcall : ∀ command notifier, w.find? id ≠ some (.command command notifier)
  · obtain ⟨log, hp, hall⟩ := Within.run_works hpull hcall
    exact hp.fetches fun d hd => hall _ hd
  · simp only [not_forall, not_not] at hcall
    obtain ⟨command, notifier, there⟩ := hcall
    obtain ⟨log, hp, hall, -⟩ := Passes.run_call there
    exact hp.fetches fun d hd => (List.mem_cons.mp hd).elim nofun (hall _)

end Others

end Timeline.World

end VoiceAdmin
