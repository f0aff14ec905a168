import VoiceAdmin.Proofs.Timeline.Unmounting

namespace VoiceAdmin.Timeline

open Delivery (Registry)

/-- The topics in the order in which a console subscribes to them. -/
def mountOrder : List Topic := [.notification, .status, .settings, .roster, .coalitions, .bans]

namespace World

variable {w u v : World} {topic : Topic} {id sub : Nat} {holders : List Holder} {h : Holder}

/-- The tasks that were started between two worlds. -/
def started (w v : World) : List Nat := List.range' w.nextTask (v.nextTask - w.nextTask)

/-- Tasks that were started and dropped may have had their turn since; nothing else has happened. -/
structure Reaping (w v : World) (holders : List Holder) : Prop where
  lawful : v.Lawful
  dropped : ∀ h ∈ holders, v.find? h.task = some (.dropped h.sub) ∨ v.find? h.task = none
  registered : ∀ topic, ∃ left, v.registry.registered topic = w.registry.registered topic ++ left ∧
    ∀ sub ∈ left, ∃ h ∈ holders, h.sub = sub

theorem find?_finish_gone (hgone : w.find? id = none) (i other : Nat) :
    (w.finish i other).find? id = none :=
  find?_eq_none.mpr fun e he => find?_eq_none.mp hgone e (mem_finish he).1

theorem Mounted.sub_new (hm : w.Mounted v holders) (hh : h ∈ holders) : w.registry.nextId ≤ h.sub := by
  have hsub : h.sub ∈ holders.map Holder.sub := List.mem_map_of_mem hh
  rw [hm.subs] at hsub
  exact (List.mem_range'_1.mp hsub).1

/-- What was registered before is older than what was made since. -/
theorem Lawful.registered_lt (hw : w.Lawful) (h : sub ∈ w.registry.registered topic) :
    sub < w.registry.nextId := by
  obtain ⟨m, hm, rfl⟩ := List.mem_map.mp h
  exact hw.registry.fresh m (List.mem_filter.mp hm).1

namespace Reaping

theorem run (hr : w.Reaping u holders) (hw : w.Lawful) (hm : w.Mounted v holders) (hh : h ∈ holders) :
    w.Reaping (u.run h.task) holders := by
  rcases hr.dropped h hh with hdropped | hgone
  · rw [run_dropped hdropped]
    refine ⟨(Passes.step (.finish ⟨_, hdropped, rfl⟩)).lawful hr.lawful, fun other hother => ?_, fun topic => ?_⟩
    · by_cases hsame : other.task = h.task
      · exact .inr (hsame ▸ find?_finish_self u h.task h.sub)
      · rcases hr.dropped other hother with hf | hf
        · exact .inl (hr.lawful.find?_finish_other hf rfl hsame _)
        · exact .inr (find?_finish_gone hf _ _)
    · obtain ⟨left, hregistered, hleft⟩ := hr.registered topic
      have hold : ∀ i ∈ w.registry.registered topic, (!(h.sub == i)) = true := by
        intro i hi
        have hlt := hw.registered_lt hi
        have hle := hm.sub_new hh
        simpa using Nat.ne_of_gt (Nat.lt_of_lt_of_le hlt hle)
      refine ⟨left.filter fun i => !(h.sub == i), ?_, fun i hi => hleft i (List.mem_filter.mp hi).1⟩
      rw [finish_registry, Registry.registered_release, hregistered, List.filter_append,
        List.filter_eq_self.mpr hold]
  · rwa [run_gone hgone]

theorem turns (hr : w.Reaping u holders) (hw : w.Lawful) (hm : w.Mounted v holders) {turns : List Nat}
    (hturns : ∀ id ∈ turns, ∃ h ∈ holders, h.task = id) :
    w.Reaping (turns.foldl World.run u) holders ∧
      (∀ id, u.find? id = none → (turns.foldl World.run u).find? id = none) ∧
      ∀ id ∈ turns, (turns.foldl World.run u).find? id = none := by
  induction turns generalizing u with
  | nil => exact ⟨hr, fun _ hgone => hgone, nofun⟩
  | cons id turns ih =>
    obtain ⟨h, hh, rfl⟩ := hturns id List.mem_cons_self
    obtain ⟨hreaping, hstays, hgone⟩ := ih (hr.run hw hm hh) fun i hi => hturns i (.tail _ hi)
    have hself : (u.run h.task).find? h.task = none := by
      rcases hr.dropped h hh with hdropped | hnone
      · rw [run_dropped hdropped]
        exact find?_finish_self ..
      · rwa [run_gone hnone]
    have hkept : ∀ i, u.find? i = none → (u.run h.task).find? i = none := by
      intro i hi
      rcases hr.dropped h hh with hdropped | hnone
      · rw [run_dropped hdropped]
        exact find?_finish_gone hi _ _
      · rwa [run_gone hnone]
    refine ⟨hreaping, fun i hi => hstays i (hkept i hi), fun i hi => ?_⟩
    rcases List.mem_cons.mp hi with rfl | hi
    · exact hstays _ hself
    · exact hgone i hi

end Reaping

namespace Mounted

theorem mem_started (hm : w.Mounted v holders) : id ∈ w.started v ↔ ∃ h ∈ holders, h.task = id := by
  rw [started, ← hm.ids, List.mem_map]

/-- A task that is gone has left nothing behind. -/
theorem ended (hm : w.Mounted v holders) (hh : h ∈ holders) (hgoes : v.Goes u)
    (hgone : u.find? h.task = none) : u.Ended h.topic h.task h.sub :=
  ended_of_gone (hgoes.running hm.lawful (.inl (hm.running h hh))) hgone

/-- Once those that were dropped have had their turns, everything is as before. -/
theorem reaped (hm : w.Mounted v holders) (hw : w.Lawful)
    (hdropped : ∀ h ∈ holders, v.find? h.task = some (.dropped h.sub)) {turns : List Nat}
    (hturns : ∀ id, id ∈ turns ↔ id ∈ w.started v) :
    (∀ id ∈ w.started v, (turns.foldl run v).find? id = none) ∧
      ∀ topic, (turns.foldl run v).registry.registered topic = w.registry.registered topic := by
  have hstart : w.Reaping v holders :=
    { lawful := hm.lawful
      dropped := fun h hh => .inl (hdropped h hh)
      registered := fun topic => ⟨_, hm.registered topic, fun sub hsub => by
        obtain ⟨h, hh, rfl⟩ := List.mem_map.mp hsub
        exact ⟨h, (List.mem_filter.mp hh).1, rfl⟩⟩ }
  obtain ⟨hreaping, -, hgone⟩ := hstart.turns hw hm fun id hid =>
    hm.mem_started.mp ((hturns id).mp hid)
  refine ⟨fun id hid => hgone id ((hturns id).mpr hid), fun topic => ?_⟩
  obtain ⟨left, hregistered, hleft⟩ := hreaping.registered topic
  -- Whoever might be left is one of those that were dropped, and by now all of these have ended.
  have hnone : left = [] := by
    refine List.eq_nil_iff_forall_not_mem.mpr fun sub hsub => ?_
    obtain ⟨h, hh, rfl⟩ := hleft sub hsub
    have hended := hm.ended hh (.foldl .run turns v)
      (hgone _ ((hturns _).mpr (hm.mem_started.mpr ⟨h, hh, rfl⟩)))
    exact hended.not_registered hreaping.lawful topic
      (hregistered ▸ List.mem_append_right _ hsub)
  rw [hregistered, hnone, List.append_nil]

end Mounted

theorem mountConsole_cases (hw : w.Lawful) (config : Sync.Config) :
    (config.poll = 0 ∧ w.mountConsole config = (.error .zeroPoll, w)) ∨
      (config.poll ≠ 0 ∧ ∃ console v holders,
        w.mountConsole config = (.ok console, v) ∧ w.Mounted v holders ∧
          (holders.map fun h => (h.topic, h.task)) = console.holders ∧
          console.holders.map Prod.fst = mountOrder ∧ ∀ topic ∈ mountOrder, w.refusal topic = none) ∨
      config.poll ≠ 0 ∧ ∃ topic cause v holders,
        w.mountConsole config = (.error (.subscribe topic cause), v) ∧ w.Mounted v holders ∧
          (∀ h ∈ holders, v.find? h.task = some (.dropped h.sub)) ∧
          (mountOrder.find? fun t => (w.refusal t).isSome) = some topic ∧
          w.refusal topic = some cause := by
  by_cases hpoll : config.poll = 0
  · exact .inl ⟨hpoll, by rw [mountConsole, if_pos hpoll]⟩
  · have horder : mountOrder = .notification :: Domain.all.map Domain.topic := rfl
    rw [mountConsole, if_neg hpoll, mountCenter_eq, horder, List.find?_cons]
    cases hr : w.refusal .notification with
    | some cause =>
      exact .inr (.inr ⟨hpoll, .notification, cause, w, [], rfl, .refl hw, nofun, rfl, hr⟩)
    | none =>
      dsimp only
      let center : Holder := ⟨.notification, w.nextTask, w.registry.nextId⟩
      have hcenter : w.Mounted (w.start .notification (centerTask config w.now) _) [center] :=
        (Mounted.refl hw).start .notification (.info "Mounted notification center")
          (centerTask_starts config _ _)
      rcases mountViews_cases hpoll (.center w.nextTask) Domain.all [] hcenter with
        ⟨views, more, after, heq, hafter, hpairs, hviews, hnone⟩ |
        ⟨topic, cause, views, more, before, heq, hbefore, hids, hfirst, hcause⟩
      · refine .inr (.inl ⟨hpoll, ⟨w.nextTask, views⟩, after.write (.info "Admin console mounted"),
          center :: more, ?_, hafter.write _, ?_, ?_, ?_⟩)
        · rw [heq]
          rfl
        · rw [List.map_cons, hpairs]
          rfl
        · rw [← hviews]
          simp [ConsoleTasks.holders]
        · refine List.forall_mem_cons.mpr ⟨hr, fun topic htopic => ?_⟩
          obtain ⟨d, hd, rfl⟩ := List.mem_map.mp htopic
          exact hnone d hd
      · have hdropped := (hbefore.foldl_drop (views.map Prod.snd)).drop w.nextTask
        refine .inr (.inr ⟨hpoll, topic, cause, _, center :: more, ?_, hdropped, fun h hh => ?_, hfirst,
          hcause⟩)
        · rw [heq]
          rfl
        rcases List.mem_cons.mp hh with rfl | hmore
        · exact drop_holds ((hbefore.foldl_drop _).running _ hh).holds
        · refine drop_dropped (foldl_drop_holds (hbefore.running h hh).holds ?_) _
          rw [← hids]
          exact List.mem_map_of_mem hmore

/-- It is over with a task: it takes no turns and shows nothing, nobody issues a fetch for it, and what
it held was given back once and is registered nowhere. -/
structure Over (w : World) (topic : Topic) (id sub : Nat) : Prop where
  ended : w.Ended topic id sub
  unregistered : ∀ other, sub ∉ w.registry.registered other
  still : w.run id = w
  dark : (w.lookView id).1 = none ∧ (w.lookCenter id).1 = none
  fetches : ∀ i, (w.run i).wire.fetches ≠ w.wire.fetches →
    ∃ d owner ticket, w.find? i = some (.pull d owner ticket) ∧ owner ≠ id

theorem Ended.over (h : w.Ended topic id sub) (hw : w.Lawful) : w.Over topic id sub where
  ended := h
  unregistered := h.not_registered hw
  still := run_gone h.gone
  dark := by
    unfold lookView lookCenter
    rw [h.gone]
    exact ⟨rfl, rfl⟩
  fetches := by
    intro i hi
    obtain ⟨d, owner, ticket, hf⟩ := run_fetches hi
    refine ⟨d, owner, ticket, hf, ?_⟩
    rintro rfl
    exact (h.still _ (mem_of_find? hf)).2 rfl

/-- How a task of a console comes to its end: with the others or alone, told to stop at the next message
or where it is, or by itself. -/
inductive TakenDown (console : ConsoleTasks) (topic : Topic) (id : Nat) (u : World) : World → Prop where
  | unmountConsole : TakenDown console topic id u (u.unmountConsole console)
  | dropConsole : TakenDown console topic id u (u.dropConsole console).settle
  | unmountView (h : topic ≠ .notification) : TakenDown console topic id u (u.unmountView id)
  | unmountCenter (h : topic = .notification) : TakenDown console topic id u (u.unmountCenter id)
  | drop : TakenDown console topic id u (u.drop id).settle
  /-- One that was dropped has its turn. -/
  | reap : TakenDown console topic id u ((u.drop id).run id)
  | gone (h : u.find? id = none) : TakenDown console topic id u u

/-- A task that is dropped is gone after its next turn. -/
theorem run_drop_gone (hw : w.Lawful) (h : w.Running topic id sub ∨ w.Ended topic id sub) :
    ((w.drop id).run id).find? id = none := by
  rcases h with hr | he
  · rw [run_dropped (drop_holds hr.holds)]
    exact find?_finish_self ..
  · exact (((Goes.within (.drop w id)).trans (.run _ _)).ended hw he).gone

/-- Whichever way it comes to its end, it has ended. -/
theorem TakenDown.ended {console : ConsoleTasks} (h : TakenDown console topic id w v) (hw : w.Lawful)
    (hm : (topic, id) ∈ console.holders) (hh : w.Heeds id)
    (hr : w.Running topic id sub ∨ w.Ended topic id sub) : w.Goes v ∧ v.Ended topic id sub := by
  cases h with
  | unmountConsole => exact ⟨.unmountConsole w console, unmountConsole_ends hw hh hr hm⟩
  | dropConsole => exact ⟨(Goes.dropConsole w console).trans (.settle _), dropConsole_ends hw hh hr hm⟩
  | unmountView ht => exact ⟨.unmountView w id, unmountView_ends hw hh hr ht⟩
  | unmountCenter ht =>
    subst ht
    exact ⟨.unmountCenter w id, unmountCenter_ends hw hh hr⟩
  | drop =>
    exact ⟨(Goes.within (.drop w id)).trans (.settle _),
      foldl_drop_ends hw hh hr (List.mem_singleton_self id)⟩
  | reap =>
    have hgoes : w.Goes ((w.drop id).run id) := (Goes.within (.drop w id)).trans (.run _ _)
    exact ⟨hgoes, ended_of_gone (hgoes.running hw hr) (run_drop_gone hw hr)⟩
  | gone hgone => exact ⟨.refl w, ended_of_gone hr hgone⟩

/-- A holder among others is the only one on its topic. -/
theorem filter_topic (hd : (holders.map Holder.topic).Nodup) (hh : h ∈ holders) :
    (holders.filter fun other => other.topic = h.topic) = [h] := by
  induction holders with
  | nil => cases hh
  | cons first rest ih =>
    obtain ⟨hnot, hrest⟩ := List.nodup_cons.mp hd
    rcases List.mem_cons.mp hh with rfl | hh
    · rw [List.filter_cons_of_pos (by simp), List.filter_eq_nil_iff.mpr]
      intro other hother heq
      exact hnot (List.mem_map.mpr ⟨other, hother, by simpa using heq⟩)
    · have hne : first.topic ≠ h.topic := fun heq => hnot (heq ▸ List.mem_map_of_mem hh)
      rw [List.filter_cons_of_neg (by simpa using hne), ih hrest hh]

/-- A console that is mounted has one new subscription on each topic, in the order of the topics; without
an interval nothing is subscribed to; and where a topic is refused, the first such is told, and the
subscribers are the same as before once the tasks told to stop have had their turns, which they have when
everything has come to rest. Whatever else goes on, a task of a console has ended when the console or the
task is unmounted, or dropped and given its turn, and then it is over with it for good. -/
theorem mountConsole_all_or_nothing (w : World) (config : Sync.Config) (hw : w.Lawful) :
    match w.mountConsole config with
    | (.ok console, v) =>
      config.poll ≠ 0 ∧ (∀ topic ∈ mountOrder, w.refusal topic = none) ∧
        console.holders.map Prod.fst = mountOrder ∧
        ∀ topic id, (topic, id) ∈ console.holders → ∃ sub, v.Running topic id sub ∧
          v.registry.registered topic = w.registry.registered topic ++ [sub] ∧
          ∀ (events : List Event) (u : World), TakenDown console topic id (v.playAll events) u →
            ∀ more, (u.playAll more).Over topic id sub
    | (.error .zeroPoll, v) => config.poll = 0 ∧ v = w
    | (.error (.subscribe topic cause), v) =>
      config.poll ≠ 0 ∧ (mountOrder.find? fun t => (w.refusal t).isSome) = some topic ∧
        w.refusal topic = some cause ∧
        (∀ turns : List Nat, (∀ id, id ∈ turns ↔ id ∈ w.started v) → let u := turns.foldl run v
          (∀ id ∈ w.started v, u.find? id = none) ∧
          ∀ other, u.registry.registered other = w.registry.registered other) ∧
        ∀ events : List Event, let u := v.playAll events
          (∀ id ∈ w.started v, u.settle.find? id = none) ∧
          ((∀ id ∈ w.started v, u.find? id = none) →
            ∀ sub, w.registry.nextId ≤ sub → sub < v.registry.nextId →
              ∃ topic, ∃ id ∈ w.started v, ∀ more, (u.playAll more).Over topic id sub)
    | (.error (.closed _), _) => False := by
  rcases mountConsole_cases hw config with
    ⟨hpoll, heq⟩ | ⟨hpoll, console, v, holders, heq, hm, hpairs, horder, hnone⟩ |
    ⟨hpoll, topic, cause, v, holders, heq, hm, hdropped, hfirst, hcause⟩
  · rw [heq]
    exact ⟨hpoll, rfl⟩
  · rw [heq]
    refine ⟨hpoll, hnone, horder, fun topic id hid => ?_⟩
    have hholder := hid
    rw [← hpairs] at hholder horder
    obtain ⟨h, hh, hpair⟩ := List.mem_map.mp hholder
    cases hpair
    have hdistinct : (holders.map Holder.topic).Nodup := by
      rw [List.map_map] at horder
      exact (show holders.map Holder.topic = mountOrder from horder) ▸ by decide
    refine ⟨h.sub, hm.running h hh, ?_, fun events u htaken more => ?_⟩
    · rw [hm.registered, filter_topic hdistinct hh]
      rfl
    · have hgoes : v.Goes (v.playAll events) := .playAll v events
      have hlawful := hgoes.lawful hm.lawful
      obtain ⟨hdown, hended⟩ := htaken.ended hlawful hid (hgoes.heeds (hm.heeds h hh))
        (hgoes.running hm.lawful (.inl (hm.running h hh)))
      have hmore : u.Goes (u.playAll more) := .playAll u more
      exact (hmore.ended (hdown.lawful hlawful) hended).over (hmore.lawful (hdown.lawful hlawful))
  · rw [heq]
    refine ⟨hpoll, hfirst, hcause, fun turns hturns => hm.reaped hw hdropped hturns, fun events => ?_⟩
    have hgoes : v.Goes (v.playAll events) := .playAll v events
    have hlawful := hgoes.lawful hm.lawful
    refine ⟨fun id hid => ?_, fun hgone sub hnew hmade => ?_⟩
    · obtain ⟨h, hh, rfl⟩ := hm.mem_started.mp hid
      obtain ⟨log, hcourse⟩ := hgoes
      have hstopping := hcourse.stopping hm.lawful (.inl ⟨hm.running h hh, _, hdropped h hh, rfl⟩)
      exact (settle_ends hlawful (hcourse.heeds (hm.heeds h hh)) hstopping).gone
    · have hsub : sub ∈ holders.map Holder.sub := by
        rw [hm.subs]
        exact List.mem_range'_1.mpr ⟨hnew, by omega⟩
      obtain ⟨h, hh, rfl⟩ := List.mem_map.mp hsub
      have hid : h.task ∈ w.started v := hm.mem_started.mpr ⟨h, hh, rfl⟩
      refine ⟨h.topic, h.task, hid, fun more => ?_⟩
      have hmore := Goes.playAll (v.playAll events) more
      exact (hmore.ended hlawful (hm.ended hh hgoes (hgone _ hid))).over (hmore.lawful hlawful)

/-- A server without subscribers, for a console that calls its notifications by numbers. -/
def vacant : World := { ids := fun n => toString n }

/-- A server that has a subscriber to the coalitions and takes no more of them. -/
def refusing : World :=
  { vacant with
    wire.server.registry := (({} : Registry).subscribe .coalitions).2
    wire.refusals := [(.coalitions, .unavailable "no more subscribers")] }

/-- Where the coalitions are refused, the center and three views are started and told to stop; after their
turns, in whatever order, that subscriber is again the only one. Where nothing is refused, six tasks are
started; the console runs for two polls, is asked for one more and is unmounted, and it is over with it. -/
theorem mountConsole_refused_or_unmounted :
    (refusing.Lawful ∧
      (refusing.mountConsole {}).1 =
        .error (.subscribe .coalitions (.unavailable "no more subscribers")) ∧
      refusing.started (refusing.mountConsole {}).2 = [0, 1, 2, 3] ∧
      ∀ topic, ([2, 0, 3, 1].foldl run (refusing.mountConsole {}).2).registry.registered topic =
        refusing.registry.registered topic) ∧
    vacant.Lawful ∧ ∃ console v, vacant.mountConsole {} = (.ok console, v) ∧
      console.holders =
        [(.notification, 0), (.status, 1), (.settings, 2), (.roster, 3), (.coalitions, 4), (.bans, 5)] ∧
      ∀ topic id, (topic, id) ∈ console.holders → ∃ sub, ∀ more,
        (((v.playAll [.wait 6000, .control 1 .refresh]).unmountConsole console).playAll more).Over
          topic id sub := by
  have hvacant : vacant.Lawful := .empty _
  have hw : refusing.Lawful :=
    { hvacant with
      made := fun _ he => absurd he List.not_mem_nil
      registry := (Registry.Continues.subscribe {} .coalitions).lawful ⟨.empty, .nil⟩ }
  constructor
  · have hresult : (refusing.mountConsole {}).1 =
        .error (.subscribe .coalitions (.unavailable "no more subscribers")) := rfl
    have hstarted : refusing.started (refusing.mountConsole {}).2 = [0, 1, 2, 3] := rfl
    have h := mountConsole_all_or_nothing refusing {} hw
    refine ⟨hw, hresult, hstarted, ?_⟩
    cases hv : refusing.mountConsole {} with
    | mk result v =>
      rw [hv] at h hresult hstarted
      dsimp only at hresult hstarted ⊢
      subst hresult
      obtain ⟨-, -, -, hreaped, -⟩ := h
      have hall : ∀ id, id ∈ [2, 0, 3, 1] ↔ id ∈ refusing.started v := by
        intro id
        rw [hstarted]
        exact List.Perm.mem_iff (by decide)
      exact (hreaped [2, 0, 3, 1] hall).2
  · have hresult : (vacant.mountConsole {}).1 =
        .ok ⟨0, [(.status, 1), (.settings, 2), (.roster, 3), (.coalitions, 4), (.bans, 5)]⟩ := rfl
    have h := mountConsole_all_or_nothing vacant {} hvacant
    refine ⟨hvacant, ?_⟩
    cases hv : vacant.mountConsole {} with
    | mk result v =>
      rw [hv] at h hresult
      dsimp only at hresult
      subst hresult
      obtain ⟨-, -, -, hholders⟩ := h
      refine ⟨_, v, rfl, rfl, fun topic id hid => ?_⟩
      obtain ⟨sub, -, -, hover⟩ := hholders topic id hid
      exact ⟨sub, hover _ _ .unmountConsole⟩

end World

end VoiceAdmin.Timeline
