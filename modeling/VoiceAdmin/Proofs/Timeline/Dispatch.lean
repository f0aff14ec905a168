import VoiceAdmin.Proofs.Request
import VoiceAdmin.Proofs.Timeline.Events

namespace VoiceAdmin.Timeline

/-- No alert comes or goes by it. -/
def Deed.Silent : Deed → Prop
  | .fetch _ => True
  | .call _ _ _ => True
  | .beside _ => True
  | .clock => True
  | .queue => True
  | _ => False

namespace World

variable {w w' w'' : World} {id : Nat} {task : Task} {log : List Deed}

/-- The messages that wait where alerts go. -/
def received (w : World) : Notifier → List Alerts.Message
  | .list => w.unshown
  | .center id => (w.find? id).elim [] Task.inbox

/-- There is somebody to take alerts. -/
def Listening (w : World) : Notifier → Prop
  | .list => True
  | .center id => ∃ task, w.find? id = some (.center task)

theorem listening_congr (tasks : w'.tasks = w.tasks) (notifier : Notifier) :
    w'.Listening notifier ↔ w.Listening notifier := by
  cases notifier with
  | list => exact Iff.rfl
  | center id => rw [Listening, Listening, find?_congr tasks]

theorem listening_remove (there : w.find? id = some task) (hc : ∀ c, task ≠ .center c)
    (notifier : Notifier) : (w.remove id).Listening notifier ↔ w.Listening notifier := by
  cases notifier with
  | list => exact Iff.rfl
  | center i =>
    rw [Listening, Listening, find?_remove]
    by_cases hi : i = id
    · rw [if_pos hi, hi, there]
      exact ⟨nofun, fun ⟨c, hf⟩ => absurd (Option.some.inj hf) (hc c)⟩
    · rw [if_neg hi]

/-- No alert is raised. -/
def Unheard (w w' : World) : Prop := ∀ notifier, w'.received notifier = w.received notifier

/-- A notification is sent to one place, once. It arrives there if there is somebody to take it; nothing
else arrives anywhere. -/
structure Announced (notifier : Notifier) (notification : Notification) (w w' : World) : Prop where
  taken : w.Listening notifier → ∀ other, w'.received other =
    w.received other ++ if other = notifier then [.enqueue notification] else []
  lost : ¬ w.Listening notifier → w.Unheard w'

namespace Unheard

theorem same (tasks : w'.tasks = w.tasks) (unshown : w'.unshown = w.unshown) : w.Unheard w' := by
  intro notifier
  cases notifier with
  | list => exact unshown
  | center id => rw [received, received, find?_congr tasks]

theorem refl (w : World) : w.Unheard w := fun _ => rfl

theorem trans (h : w.Unheard w') (h' : w'.Unheard w'') : w.Unheard w'' :=
  fun notifier => (h' notifier).trans (h notifier)

theorem wake (w : World) (id : Nat) : w.Unheard (w.wake id) :=
  same (wake_tasks w id) (Aside.wake w id).unshown

theorem spawn (w : World) (h : task.inbox = []) : w.Unheard (w.spawn task).2 := by
  intro notifier
  cases notifier with
  | list => exact wake _ _ .list
  | center i =>
    rw [received, received]
    rcases lookup_spawn_cases w task i with heq | ⟨rfl, -⟩
    · rw [heq]
    · rw [find?, find?, spawn_tasks, List.lookup_append]
      cases w.tasks.lookup w.nextTask with
      | some known => rfl
      | none => simp [h]

/-- A task ends that no messages wait for. -/
theorem remove (there : w.find? id = some task) (h : task.inbox = []) : w.Unheard (w.remove id) := by
  intro notifier
  cases notifier with
  | list => rfl
  | center i =>
    rw [received, received, find?_remove]
    by_cases hi : i = id
    · rw [if_pos hi, hi, there]
      exact h.symm
    · rw [if_neg hi]

theorem setTask {old : Task} (there : w.find? id = some old) (h : task.inbox = old.inbox) :
    w.Unheard (w.setTask id task) := by
  intro notifier
  cases notifier with
  | list => rfl
  | center i =>
    rw [received, received, find?_setTask]
    by_cases hi : i = id
    · rw [if_pos hi, hi, there]
      exact h
    · rw [if_neg hi]

end Unheard

theorem Passes.unheard (h : w.Passes log w') (hsilent : ∀ deed ∈ log, deed.Silent) : w.Unheard w' := by
  induction h with
  | trans _ _ ih ih' =>
    exact (ih fun deed hd => hsilent deed (List.mem_append_left _ hd)).trans
      (ih' fun deed hd => hsilent deed (List.mem_append_right _ hd))
  | step h =>
    cases h with
    | aside h => exact .same h.tasks h.unshown
    | spawn free => exact .spawn _ (Task.inbox_eq_nil free)
    | mount topic holds empty => exact Unheard.trans (.same rfl rfl) (.spawn _ empty)
    | reach there _ inbox => exact (Unheard.setTask there inbox).trans (.wake _ _)
    | look there _ inbox => exact .setTask there inbox
    | remove there free => exact .remove there (Task.inbox_eq_nil free)
    | call there => exact Unheard.trans (.same rfl rfl) (.setTask there rfl)
    | own => exact (hsilent _ (List.mem_singleton_self _)).elim
    | drop => exact (hsilent _ (List.mem_singleton_self _)).elim
    | list => exact (hsilent _ (List.mem_singleton_self _)).elim
    | center => exact (hsilent _ (List.mem_singleton_self _)).elim
    | finish => exact (hsilent _ (List.mem_singleton_self _)).elim
    | _ => exact .same rfl rfl

namespace Announced

variable {notifier : Notifier} {notification : Notification}

theorem after (h : w.Unheard w') (hl : w'.Listening notifier ↔ w.Listening notifier)
    (h' : Announced notifier notification w' w'') : Announced notifier notification w w'' where
  taken hlistening other := by rw [h'.taken (hl.mpr hlistening) other, h other]
  lost hdeaf := h.trans (h'.lost fun hlistening => hdeaf (hl.mp hlistening))

theorem send_taken (hl : w.Listening notifier) (notification : Notification) (other : Notifier) :
    (w.send notifier (.enqueue notification)).received other =
      w.received other ++ if other = notifier then [.enqueue notification] else [] := by
  cases notifier with
  | list =>
    cases other with
    | list => rw [if_pos rfl]; rfl
    | center i => rw [if_neg nofun, List.append_nil]; rfl
  | center id =>
    obtain ⟨task, there⟩ := hl
    rw [World.send, there]
    refine (Unheard.wake _ _ other).trans ?_
    cases other with
    | list => rw [if_neg nofun, List.append_nil]; rfl
    | center i =>
      rw [received, received, find?_setTask]
      by_cases hi : i = id
      · rw [if_pos hi, hi, there, if_pos rfl]
        rfl
      · rw [if_neg hi, if_neg fun heq => hi (Notifier.center.inj heq), List.append_nil]

theorem send (w : World) (notifier : Notifier) (notification : Notification) :
    Announced notifier notification w (w.send notifier (.enqueue notification)) where
  taken hl := send_taken hl notification
  lost hdeaf := by
    cases notifier with
    | list => exact absurd trivial hdeaf
    | center id =>
      simp only [World.send]
      split
      · rename_i there
        exact absurd ⟨_, there⟩ hdeaf
      · exact .refl w

/-- An alert is one notification, under an id of its own. -/
theorem raise (w : World) (notifier : Notifier) (notice : Notice) :
    Announced notifier (notice.withId (w.ids w.serial)) w
      (w.raise notifier notice) := by
  have hnumbered : w.Unheard w.freshId.2 := .same rfl rfl
  exact after hnumbered (listening_congr rfl _) (send w.freshId.2 notifier _)

/-- What is heard of a call that fails. -/
theorem run_call {command : Command} {error : RemoteError}
    (h : w.call? id = some (command, notifier))
    (failed : (w.wire.execute command).1 = .error error) :
    Announced notifier ((command.failure error).withId (w.ids w.serial)) w (w.run id) := by
  have there := find?_of_call? h
  let written := ((w.sent command).remove id).write
    (.warning (command.describe ++ " failed: " ++ error.message))
  have hunheard : w.Unheard written :=
    ((Passes.sent there).trans (.aside (.calm (.write _ _)))).unheard (by simp [Deed.Silent])
  have hl : written.Listening notifier ↔ w.Listening notifier :=
    (listening_congr rfl _).trans
      ((listening_remove (w := w.sent command) there nofun _).trans (listening_congr rfl _))
  rw [World.run_call there, failed]
  exact after hunheard hl (raise written notifier (command.failure error))

end Announced

/-- What only raises alerts leaves the calls alone. -/
theorem Within.calls (h : Within Deed.IsMessage w w') (hw : w.Lawful) :
    w'.wire.commands = w.wire.commands ∧ ∀ call < w.nextTask, w'.call? call = w.call? call := by
  obtain ⟨log, hp, hall⟩ := h
  have hnone : ∀ {α : Type} {f : Deed → Option α}, (∀ deed, deed.IsMessage → f deed = none) →
      log.filterMap f = [] :=
    fun hf => List.filterMap_eq_nil_iff.mpr fun deed hd => hf deed (hall deed hd)
  constructor
  · rw [hp.commands, hnone fun _ => Deed.command?_of_isMessage, List.append_nil]
  · intro call hcall
    have haccount := hp.accounted hw hcall
    rw [sentBy, hnone fun _ => Deed.call?_of_isMessage, List.nil_append] at haccount
    simpa using (congrArg List.head? haccount).symm

theorem raise_nextTask (w : World) (notifier : Notifier) (notice : Notice) :
    (w.raise notifier notice).nextTask = w.nextTask := by
  show (World.send _ _ _).nextTask = _
  unfold World.send
  split
  · rfl
  · split
    · rw [wake_nextTask]
      rfl
    · rfl

/-- What is over does not come back. -/
theorem Goes.call?_eq_none {call : Nat} (h : w.Goes w') (hw : w.Lawful) (hknown : call < w.nextTask)
    (hended : w.call? call = none) : w'.call? call = none := by
  obtain ⟨log, h⟩ := h
  have haccount := h.passes.accounted hw hknown
  rw [hended] at haccount
  exact Option.toList_eq_nil_iff.mp (List.append_eq_nil_iff.mp haccount.symm).2

/-- A call is sent when those before it in line have had their turns. -/
theorem settleWithin_ended {call : Nat} {before after : List Nat} (hw : w.Lawful)
    (hknown : call < w.nextTask) (hline : w.ready = before ++ call :: after) {turns : Nat}
    (hturns : before.length < turns) : (settleWithin turns w).call? call = none := by
  induction before generalizing w after turns with
  | nil =>
    cases turns with
    | zero => exact absurd hturns (Nat.lt_irrefl 0)
    | succ turns =>
      have hw' : Lawful { w with ready := after } := { hw with }
      have hturn := Within.run { w with ready := after } call
      rw [World.settleWithin, hline]
      exact (Goes.settleWithin turns _).call?_eq_none (hturn.lawful hw')
        (Nat.lt_of_lt_of_le hknown hturn.nextTask_le) (run_call_none hw' call)
  | cons first before ih =>
    cases turns with
    | zero => exact absurd hturns (Nat.not_lt_zero _)
    | succ turns =>
      have hw' : Lawful { w with ready := before ++ call :: after } := { hw with }
      obtain ⟨log, hp, hall⟩ := Within.run { w with ready := before ++ call :: after } first
      obtain ⟨more, hmore⟩ := (hp.line fun h => hall _ h).1
      have hline' : (World.run { w with ready := before ++ call :: after } first).ready =
          before ++ call :: (after ++ more) := by
        simpa using hmore.symm
      rw [World.settleWithin, hline]
      exact ih (hp.lawful hw') (Nat.lt_of_lt_of_le hknown hp.nextTask_le) hline'
        (Nat.lt_of_succ_lt_succ hturns)

/-- After as many turns as there are tasks in line, every call that there was has been sent. -/
theorem settleWithin_sends {call : Nat} (hw : w.Lawful) (hl : w.Lined) (hknown : call < w.nextTask)
    {turns : Nat} (hturns : w.ready.length ≤ turns) : (settleWithin turns w).call? call = none := by
  by_cases hcall : w.call? call = none
  · exact (Goes.settleWithin turns w).call?_eq_none hw hknown hcall
  · obtain ⟨before, after, hline⟩ := List.append_of_mem (hl call hcall)
    refine settleWithin_ended hw hknown hline (Nat.lt_of_lt_of_le ?_ hturns)
    rw [hline, List.length_append, List.length_cons]
    omega

/-- A call in a world that came of the one in which it was made: it was sent once or is still to be sent;
its turn comes; what its turn does, and what is left of it afterwards. -/
structure Answered (call : Nat) (command : Command) (notifier : Notifier) (v u : World) : Prop where
  once : ∃ log, v.Course log u ∧
    u.wire.commands = v.wire.commands ++ log.filterMap Deed.command? ∧
    [(command, notifier)] = sentBy call log ++ (u.call? call).toList
  comes : ∀ turns, u.ready.length ≤ turns → (settleWithin turns u).call? call = none
  passes : u.call? call = some (command, notifier) →
    (u.run call).wire.commands = u.wire.commands ++ [command] ∧ (u.run call).call? call = none
  fails : u.call? call = some (command, notifier) →
    ∀ error, (u.wire.execute command).1 = .error error →
      Announced notifier
        ⟨u.ids u.serial, command.describe ++ " failed", error.message, .error⟩ u
        (u.run call)
  succeeds : u.call? call = some (command, notifier) →
    ∀ delay, (u.wire.execute command).1 = .ok delay → u.Unheard (u.run call)
  /-- A command that is carried out later is neither passed on again nor announced. -/
  later : u.find? call = some (.delayed command) →
    (u.run call).wire.commands = u.wire.commands ∧ u.Unheard (u.run call)

theorem answered {call : Nat} {command : Command} {notifier : Notifier} {v : World} (hv : v.Lawful)
    (hl : v.Lined) (hcall : v.call? call = some (command, notifier)) (more : List Event) :
    Answered call command notifier v (v.playAll more) := by
  have hknown : call < v.nextTask := hv.known (find?_of_call? hcall)
  have hgoes : v.Goes (v.playAll more) := .playAll v more
  have hu : (v.playAll more).Lawful := hgoes.lawful hv
  have hknown' : call < (v.playAll more).nextTask := by
    obtain ⟨log, hcourse⟩ := hgoes
    exact Nat.lt_of_lt_of_le hknown hcourse.passes.nextTask_le
  constructor
  · obtain ⟨log, hcourse⟩ := hgoes
    have haccount := hcourse.passes.accounted hv hknown
    rw [hcall] at haccount
    exact ⟨log, hcourse, hcourse.passes.commands, haccount⟩
  · exact fun turns => settleWithin_sends hu (hgoes.lined hv hl) hknown'
  · intro h
    obtain ⟨log, hp, hall, -⟩ := Passes.run_call (find?_of_call? h)
    refine ⟨?_, run_call_none hu call⟩
    have hnone : log.filterMap Deed.command? = [] :=
      List.filterMap_eq_nil_iff.mpr fun deed hd => Deed.command?_of_isMessage (hall deed hd)
    rw [hp.commands, List.filterMap_cons, hnone]
    rfl
  · exact fun h error failed => Announced.run_call h failed
  · intro h delay passed
    obtain ⟨log, hp, -, hnone⟩ := Passes.run_call (find?_of_call? h)
    rw [hnone delay passed] at hp
    exact hp.unheard (by simp [Deed.Silent])
  · intro there
    have hp := Passes.run_delayed there
    exact ⟨hp.commands.trans (List.append_nil _), hp.unheard nofun⟩

/-- A request to the console ends in one way. If a check refuses it, one error is announced, no call is
made and no command sent. Otherwise its command, with the fields as they were given but for a trimmed
reason, is a call of its own, which is answered whatever else goes on. Only the raw `dispatch`, which no
check refuses, may hand over a command that is not sound. -/
theorem ask_ends_once (ids : Nat → String) (events : List Event) (notifier : Notifier) (request : Request) :
    let w := ({ ids } : World).playAll events
    (∀ refusal, request.Refused refusal →
      ∃ v, w.ask notifier request = (false, v) ∧ v.wire.commands = w.wire.commands ∧
        v.nextTask = w.nextTask ∧ (∀ call < w.nextTask, v.call? call = w.call? call) ∧
        refusal.notice.level = .error ∧
        Announced notifier (refusal.notice.withId (w.ids w.serial)) w v) ∧
    ((∀ refusal, ¬ request.Refused refusal) →
      ((∀ command, request ≠ .dispatch command) → request.wish.Sound) ∧
      ∃ v, w.ask notifier request = (true, v) ∧ v.wire = w.wire ∧ w.Unheard v ∧
        v.call? w.nextTask = some (request.wish, notifier) ∧
        (∀ call < w.nextTask, v.call? call = w.call? call) ∧
        ∀ more, Answered w.nextTask request.wish notifier v (v.playAll more)) := by
  intro w
  have hw : w.Lawful := playAll_lawful ids events
  have hlined : w.Lined := playAll_lined ids events
  refine ⟨fun refusal hrefused => ?_, fun hallowed => ⟨fun hraw => request.wish_sound hallowed hraw, ?_⟩⟩
  · obtain ⟨hcommands, hcalls⟩ := (Within.raise w notifier refusal.notice).calls hw
    refine ⟨w.raise notifier refusal.notice, ?_, hcommands, raise_nextTask .., hcalls,
      refusal.notice_level, .raise ..⟩
    rw [ask, hrefused.command]
  · have hspawn : Within Deed.IsMessage w (w.spawn (.command request.wish notifier)).2 :=
      .spawn w rfl rfl
    have hcall : (w.spawn (.command request.wish notifier)).2.call? w.nextTask =
        some (request.wish, notifier) :=
      (call?_of_find? (find?_spawn_new hw.fresh _)).trans rfl
    have hgoes : w.Goes (w.spawn (.command request.wish notifier)).2 :=
      .within (hspawn.mono fun _ => Deed.outside_of_isMessage)
    refine ⟨_, ?_, spawn_wire .., .spawn w rfl, hcall, (hspawn.calls hw).2,
      answered (hspawn.lawful hw) (hgoes.lined hw hlined) hcall⟩
    rw [ask, Request.command_allowed hallowed]

/-- A ban of nobody is refused, a kick is sent with its reason trimmed. -/
theorem ask_ends_once_kick :
    let w : World := { ids := fun n => toString n }
    (∃ v, w.ask .list (.ban " " "griefing") = (false, v) ∧ v.wire.commands = [] ∧
      v.received .list = [.enqueue ⟨"0", "No client selected", "Select a client first", .error⟩]) ∧
    ∃ v, w.ask .list (.kick "42" "  afk ") = (true, v) ∧ v.received .list = [] ∧
      v.call? 0 = some (.kick "42" "afk", .list) := by
  intro w
  constructor
  · obtain ⟨v, hask, hcommands, -, -, -, hannounced⟩ :=
      (ask_ends_once (fun n => toString n) [] .list (.ban " " "griefing")).1 .noClient
        (.client rfl (by decide))
    exact ⟨v, hask, hcommands, hannounced.taken trivial .list⟩
  · have hallowed : ∀ refusal, ¬ (Request.kick "42" "  afk ").Refused refusal := by
      intro refusal hrefused
      cases hrefused.command
    obtain ⟨-, v, hask, -, hunheard, hcall, -⟩ :=
      (ask_ends_once (fun n => toString n) [] .list _).2 hallowed
    exact ⟨v, hask, hunheard .list, hcall⟩

/-- Who uses `dispatch` may send a kick that names nobody. -/
theorem dispatch_sends_blank_kick :
    let asked := ({ ids := fun n => toString n } : World).ask .list (.dispatch (.kick "" ""))
    asked.1 = true ∧ asked.2.settle.wire.commands = [.kick "" ""] ∧ asked.2.settle.unshown = [] ∧
      Text.trim "" = "" ∧ ¬ (Command.kick "" "").Sound :=
  ⟨rfl, rfl, rfl, rfl, fun h => h.1 rfl⟩

end World

end VoiceAdmin.Timeline
