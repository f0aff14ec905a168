import VoiceAdmin.Proofs.Timeline.Courses

namespace VoiceAdmin.Timeline

open Delivery (Registry Subscription)

/-- A task that begins to listen to a topic, with a subscription of its own. -/
structure Task.Starts (task : Task) (topic : Topic) (sub : Nat) : Prop where
  holds : task.subscription? = some sub
  empty : task.inbox = []
  fresh : task.told = false
  listens : ∀ t, task.topic? = some t → t = topic

namespace World

variable {w v : World} {topic : Topic} {id sub : Nat}

/-- Why a topic cannot be subscribed to. -/
def refusal (w : World) (topic : Topic) : Option RemoteError :=
  match w.wire.subscribe topic with
  | .ok _ => none
  | .error e => some e

/-- Starts a task with a new subscription on a topic. -/
def start (w : World) (topic : Topic) (task : Nat → Task) (line : Line) : World :=
  ((w.mapRegistry fun r => (r.subscribe topic).2).spawn (task w.registry.nextId)).2.write line

def centerTask (config : Sync.Config) (now subscription : Nat) : Task :=
  .center { center := { queue := { ttl := config.ttl }, since := now }, subscription }

/-- The task behind a view that is mounted at some time. -/
def viewTask (config : Sync.Config) (polls : config.poll ≠ 0) (notifier : Notifier) (d : Domain)
    (now subscription : Nat) : Task :=
  .session d
    { subscription, notifier, poll := config.poll, polls := Nat.pos_of_ne_zero polls, nextTick := now }

theorem centerTask_starts (config : Sync.Config) (now sub : Nat) :
    (centerTask config now sub).Starts .notification sub :=
  ⟨rfl, rfl, rfl, fun _ h => (Option.some.inj h).symm⟩

theorem viewTask_starts (config : Sync.Config) (polls : config.poll ≠ 0) (notifier : Notifier) (d : Domain)
    (now sub : Nat) : (viewTask config polls notifier d now sub).Starts d.topic sub :=
  ⟨rfl, rfl, rfl, fun _ h => (Option.some.inj h).symm⟩

theorem subscribe_eq (w : World) (topic : Topic) :
    w.subscribe topic =
      match w.refusal topic with
      | some e => .error (.subscribe topic e)
      | none => .ok (w.registry.nextId, w.mapRegistry fun r => (r.subscribe topic).2) := by
  unfold World.subscribe refusal Wire.subscribe
  cases w.wire.refusals.lookup topic with
  | some e => rfl
  | none =>
    unfold Service.Server.subscribe
    cases w.wire.server.check with
    | error e => rfl
    | ok _ => rfl

theorem mountCenter_eq (w : World) (config : Sync.Config) :
    w.mountCenter config =
      match w.refusal .notification with
      | some e => .error (.subscribe .notification e)
      | none => .ok (w.nextTask,
          w.start .notification (centerTask config w.now) (.info "Mounted notification center")) := by
  unfold World.mountCenter
  rw [subscribe_eq]
  cases w.refusal .notification <;> rfl

theorem mountView_eq {config : Sync.Config} (h : config.poll ≠ 0) (w : World) (notifier : Notifier)
    (d : Domain) :
    w.mountView config notifier d =
      match w.refusal d.topic with
      | some e => .error (.subscribe d.topic e)
      | none => .ok (w.nextTask, w.start d.topic (viewTask config h notifier d w.now)
          (.info ("Mounted " ++ d.name ++ " view (topic " ++ d.topic.event ++ ")"))) := by
  unfold World.mountView
  rw [dif_neg h, subscribe_eq]
  cases w.refusal d.topic <;> rfl

theorem refusal_congr (hrefusals : v.wire.refusals = w.wire.refusals)
    (havailable : v.wire.server.isAvailable = w.wire.server.isAvailable) (topic : Topic) :
    v.refusal topic = w.refusal topic := by
  unfold refusal Wire.subscribe Service.Server.subscribe Service.Server.check
  rw [hrefusals, havailable]
  cases w.wire.refusals.lookup topic with
  | some e => rfl
  | none => cases w.wire.server.isAvailable <;> rfl

section Start

variable {task : Nat → Task} {line : Line}

theorem Passes.start (h : (task w.registry.nextId).Starts topic w.registry.nextId) :
    w.Passes [] (w.start topic task line) :=
  (Passes.step (.mount w topic h.holds h.empty h.fresh)).trans (.aside (.calm (.write _ _)))

theorem start_wire (w : World) :
    (w.start topic task line).wire = (w.mapRegistry fun r => (r.subscribe topic).2).wire := by
  show (World.spawn _ _).2.wire = _
  rw [spawn_wire]

theorem start_nextTask (w : World) : (w.start topic task line).nextTask = w.nextTask + 1 := by
  show (World.spawn _ _).2.nextTask = _
  rw [spawn_nextTask]
  rfl

theorem start_registry (w : World) :
    (w.start topic task line).registry = (w.registry.subscribe topic).2 := by
  rw [registry, start_wire]
  rfl

theorem start_refusal (w : World) (other : Topic) :
    (w.start topic task line).refusal other = w.refusal other :=
  refusal_congr (by rw [start_wire]; rfl) (by rw [start_wire]; rfl) other

theorem start_registered (w : World) (other : Topic) :
    (w.start topic task line).registry.registered other =
      w.registry.registered other ++ if topic = other then [w.registry.nextId] else [] := by
  rw [start_registry]
  by_cases ht : topic = other <;>
    simp [Registry.registered, Registry.subscribe, List.filter_append, Registry.registeredOn, ht]

/-- Who has just started was not told to stop. -/
theorem Heeds.start (hw : w.Lawful) (h : (task w.registry.nextId).Starts topic w.registry.nextId) :
    (w.start topic task line).Heeds w.nextTask := by
  rintro ⟨old, hf, htold⟩
  have hnew := find?_spawn_new (w := w.mapRegistry fun r => (r.subscribe topic).2) hw.fresh
    (task w.registry.nextId)
  obtain rfl : task w.registry.nextId = old := Option.some.inj (hnew.symm.trans hf)
  rw [h.fresh] at htold
  cases htold

/-- The task that starts is the only one to hold its subscription. -/
theorem Running.start (hw : w.Lawful)
    (h : (task w.registry.nextId).Starts topic w.registry.nextId) :
    (w.start topic task line).Running topic w.nextTask w.registry.nextId := by
  refine ⟨?_, ?_, ?_, ?_, { topic }, ?_, rfl, rfl, rfl⟩
  · rw [start_nextTask]
    exact Nat.lt_succ_self _
  · rw [start_registry]
    exact Nat.lt_succ_self _
  · intro e he hs
    rcases mem_spawn he with he | rfl
    · exact absurd (hw.made e he _ hs) (Nat.lt_irrefl _)
    · rfl
  · exact ⟨_, find?_spawn_new (w := w.mapRegistry fun r => (r.subscribe topic).2) hw.fresh _, h.holds, h.listens⟩
  · rw [start_registry]
    exact Registry.find?_subscribe hw.registry.fresh topic

end Start

/-- A task with the topic that it listens to and the subscription that it holds. -/
structure Holder where
  topic : Topic
  task : Nat
  sub : Nat

/-- The tasks that were started in a world, each with a new subscription, are all that is new. -/
structure Mounted (w v : World) (holders : List Holder) : Prop where
  within : Within Deed.Outside w v
  lawful : v.Lawful
  refusal : ∀ topic, v.refusal topic = w.refusal topic
  ids : holders.map Holder.task = List.range' w.nextTask (v.nextTask - w.nextTask)
  running : ∀ h ∈ holders, v.Running h.topic h.task h.sub
  heeds : ∀ h ∈ holders, v.Heeds h.task
  subs : holders.map Holder.sub =
    List.range' w.registry.nextId (v.registry.nextId - w.registry.nextId)
  registered : ∀ topic, v.registry.registered topic =
    w.registry.registered topic ++ (holders.filter fun h => h.topic = topic).map Holder.sub

/-- While no task has its turn nobody is finished. -/
theorem Within.running (h : Within Deed.Outside w v) (hw : w.Lawful) (hr : w.Running topic id sub) :
    v.Running topic id sub := by
  obtain ⟨log, hp, hall⟩ := h
  exact hp.running_of_goes hw hr fun i hm => hall _ hm

theorem Within.heeds (h : Within Deed.Outside w v) (hh : w.Heeds id) : v.Heeds id := by
  obtain ⟨log, hp, hall⟩ := h
  exact (Course.outside hp hall).heeds hh

theorem drop_wire (w : World) (id : Nat) : (w.drop id).wire = w.wire := by
  unfold World.drop
  split
  · rw [wake_wire]
    rfl
  · rw [wake_wire]
    rfl
  · rfl

theorem drop_registry (w : World) (id : Nat) : (w.drop id).registry = w.registry := by
  rw [registry, drop_wire]

theorem drop_nextTask (w : World) (id : Nat) : (w.drop id).nextTask = w.nextTask := by
  unfold World.drop
  split
  · rw [wake_nextTask]
    rfl
  · rw [wake_nextTask]
    rfl
  · rfl

theorem drop_holds (h : w.Holds id sub) : (w.drop id).find? id = some (.dropped sub) := by
  obtain ⟨task, hf, hs⟩ := h
  unfold World.drop
  rw [hf]
  cases task with
  | session d task =>
    obtain rfl : task.subscription = sub := Option.some.inj hs
    rw [find?_wake, find?_setTask, if_pos rfl, hf]
    rfl
  | center task =>
    obtain rfl : task.subscription = sub := Option.some.inj hs
    rw [find?_wake, find?_setTask, if_pos rfl, hf]
    rfl
  | dropped subscription =>
    obtain rfl : subscription = sub := Option.some.inj hs
    exact hf
  | _ => cases hs

theorem find?_drop_other {i : Nat} (h : id ≠ i) (w : World) : (w.drop i).find? id = w.find? id := by
  unfold World.drop
  split
  · rw [find?_wake, find?_setTask_other h]
  · rw [find?_wake, find?_setTask_other h]
  · rfl

theorem drop_dropped (h : w.find? id = some (.dropped sub)) (i : Nat) :
    (w.drop i).find? id = some (.dropped sub) := by
  by_cases hi : id = i
  · exact hi ▸ drop_holds ⟨_, h, rfl⟩
  · exact (find?_drop_other hi w).trans h

namespace Mounted

variable {holders : List Holder}

theorem refl (hw : w.Lawful) : w.Mounted w [] where
  within := .refl w
  lawful := hw
  refusal _ := rfl
  ids := by simp
  running := nofun
  heeds := nofun
  subs := by simp
  registered _ := by simp

theorem start (h : w.Mounted v holders) (topic : Topic) {task : Nat → Task} (line : Line)
    (hs : (task v.registry.nextId).Starts topic v.registry.nextId) :
    w.Mounted (v.start topic task line) (holders ++ [⟨topic, v.nextTask, v.registry.nextId⟩]) where
  within := h.within.trans (.plain (.start hs))
  lawful := (Passes.start hs).lawful h.lawful
  refusal other := (start_refusal v other).trans (h.refusal other)
  ids := by
    have hle := h.within.nextTask_le
    have hcount : v.nextTask + 1 - w.nextTask = v.nextTask - w.nextTask + 1 := by omega
    rw [List.map_append, h.ids, start_nextTask, hcount, List.range'_concat]
    simp [Nat.add_sub_cancel' hle]
  running := by
    intro holder hm
    rcases List.mem_append.mp hm with hm | hm
    · exact (Passes.start hs).running_of_goes h.lawful (h.running holder hm) (by simp)
    · rw [List.mem_singleton.mp hm]
      exact Running.start h.lawful hs
  heeds := by
    intro holder hm
    rcases List.mem_append.mp hm with hm | hm
    · exact (Within.plain (.start hs)).heeds (h.heeds holder hm)
    · rw [List.mem_singleton.mp hm]
      exact Heeds.start h.lawful hs
  subs := by
    have hle := h.within.nextId_le
    have hnext : (v.start topic task line).registry.nextId = v.registry.nextId + 1 := by
      rw [start_registry]
      rfl
    have hcount : v.registry.nextId + 1 - w.registry.nextId =
        v.registry.nextId - w.registry.nextId + 1 := by omega
    rw [List.map_append, h.subs, hnext, hcount, List.range'_concat]
    simp [Nat.add_sub_cancel' hle]
  registered other := by
    rw [start_registered, h.registered, List.filter_append, List.map_append, List.append_assoc]
    by_cases ht : topic = other <;> simp [ht]

theorem write (h : w.Mounted v holders) (line : Line) : w.Mounted (v.write line) holders :=
  { h with
    within := h.within.trans (.calm (.write v line))
    lawful := (Passes.aside (.calm (.write v line))).lawful h.lawful
    running := fun holder hm =>
      (Passes.aside (.calm (.write v line))).running_of_goes h.lawful (h.running holder hm) (by simp)
    heeds := fun holder hm => (Within.calm (.write v line)).heeds (h.heeds holder hm) }

theorem drop (h : w.Mounted v holders) (id : Nat) : w.Mounted (v.drop id) holders where
  within := h.within.trans (.drop v id)
  lawful := (Within.drop v id).lawful h.lawful
  refusal topic := (refusal_congr (by rw [drop_wire]) (by rw [drop_wire]) topic).trans (h.refusal topic)
  ids := by rw [drop_nextTask]; exact h.ids
  running holder hm := (Within.drop v id).running h.lawful (h.running holder hm)
  heeds holder hm := (Within.drop v id).heeds (h.heeds holder hm)
  subs := by rw [drop_registry]; exact h.subs
  registered topic := by rw [drop_registry]; exact h.registered topic

theorem foldl_drop (h : w.Mounted v holders) (ids : List Nat) :
    w.Mounted (ids.foldl World.drop v) holders := by
  induction ids generalizing v with
  | nil => exact h
  | cons id ids ih => exact ih (h.drop id)

end Mounted

theorem foldl_drop_dropped (h : w.find? id = some (.dropped sub)) (ids : List Nat) :
    (ids.foldl drop w).find? id = some (.dropped sub) := by
  induction ids generalizing w with
  | nil => exact h
  | cons i ids ih => exact ih (drop_dropped h i)

/-- Whoever holds a subscription holds it when others are dropped. -/
theorem Holds.drop (h : w.Holds id sub) (i : Nat) : (w.drop i).Holds id sub := by
  by_cases hi : id = i
  · exact hi ▸ ⟨_, drop_holds h, rfl⟩
  · obtain ⟨task, hf, hs⟩ := h
    exact ⟨task, (find?_drop_other hi w).trans hf, hs⟩

/-- Whoever is dropped among others has only its subscription to give back. -/
theorem foldl_drop_holds {ids : List Nat} (h : w.Holds id sub) (hm : id ∈ ids) :
    (ids.foldl drop w).find? id = some (.dropped sub) := by
  induction ids generalizing w with
  | nil => cases hm
  | cons i ids ih =>
    rcases List.mem_cons.mp hm with rfl | hm
    · exact foldl_drop_dropped (drop_holds h) ids
    · exact ih (h.drop i) hm

/-- Views are mounted one after another until one is refused. -/
theorem mountViews_cases {config : Sync.Config} (h : config.poll ≠ 0) (notifier : Notifier)
    (rest : List Domain) (mounted : List (Domain × Nat)) {holders : List Holder}
    (hm : w.Mounted v holders) :
    (∃ views more after,
      mountViews config notifier mounted rest v = (.ok (mounted ++ views), after) ∧
        w.Mounted after (holders ++ more) ∧
        (more.map fun h => (h.topic, h.task)) = views.map (fun s => (s.1.topic, s.2)) ∧
        views.map Prod.fst = rest ∧ ∀ d ∈ rest, w.refusal d.topic = none) ∨
    ∃ topic cause views more before,
      mountViews config notifier mounted rest v =
          (.error (.subscribe topic cause), ((mounted ++ views).map Prod.snd).foldl drop before) ∧
        w.Mounted before (holders ++ more) ∧ more.map Holder.task = views.map Prod.snd ∧
        ((rest.map Domain.topic).find? fun t => (w.refusal t).isSome) = some topic ∧
        w.refusal topic = some cause := by
  -- The views that are mounted by now are part of `hm`, whichever way it ends for the rest.
  induction rest generalizing mounted v holders with
  | nil => exact .inl ⟨[], [], v, by simp [mountViews], by simpa using hm, rfl, rfl, nofun⟩
  | cons d rest ih =>
    rw [mountViews, mountView_eq h, hm.refusal]
    cases hr : w.refusal d.topic with
    | some cause =>
      exact .inr ⟨d.topic, cause, [], [], v, by simp, by simpa using hm, rfl, by simp [hr], hr⟩
    | none =>
      dsimp only
      have hstart : w.Mounted (v.start d.topic (viewTask config h notifier d v.now) _) _ :=
        hm.start d.topic (.info ("Mounted " ++ d.name ++ " view (topic " ++ d.topic.event ++ ")"))
          (viewTask_starts config h notifier d _ _)
      rcases ih (mounted ++ [(d, v.nextTask)]) hstart with
        ⟨views, more, after, heq, hafter, hpairs, hviews, hnone⟩ |
        ⟨topic, cause, views, more, before, heq, hbefore, hids, hfirst, hcause⟩
      · refine .inl ⟨(d, v.nextTask) :: views, ⟨d.topic, v.nextTask, v.registry.nextId⟩ :: more, after,
          ?_, ?_, ?_, ?_, ?_⟩
        · rw [heq, List.append_assoc]
          rfl
        · rwa [List.append_assoc] at hafter
        · rw [List.map_cons, List.map_cons, hpairs]
        · rw [List.map_cons, hviews]
        · exact List.forall_mem_cons.mpr ⟨hr, hnone⟩
      · refine .inr ⟨topic, cause, (d, v.nextTask) :: views,
          ⟨d.topic, v.nextTask, v.registry.nextId⟩ :: more, before, ?_, ?_, ?_, ?_, hcause⟩
        · rw [heq, List.append_assoc]
          rfl
        · rwa [List.append_assoc] at hbefore
        · rw [List.map_cons, List.map_cons, hids]
        · rw [List.map_cons, List.find?_cons, hr]
          exact hfirst

namespace Within

theorem mountCenter {config : Sync.Config} (h : w.mountCenter config = .ok (id, v)) :
    Within Deed.Outside w v := by
  rw [mountCenter_eq] at h
  split at h
  · cases h
  · cases h
    exact plain (.start (centerTask_starts config _ _))

theorem mountView {config : Sync.Config} {notifier : Notifier} {d : Domain}
    (h : w.mountView config notifier d = .ok (id, v)) : Within Deed.Outside w v := by
  by_cases hpoll : config.poll = 0
  · rw [World.mountView, dif_pos hpoll] at h
    cases h
  · rw [mountView_eq hpoll] at h
    split at h
    · cases h
    · cases h
      exact plain (.start (viewTask_starts config hpoll notifier d _ _))

theorem mountViews (config : Sync.Config) (notifier : Notifier) (mounted : List (Domain × Nat))
    (domains : List Domain) (w : World) :
    Within Deed.Outside w (World.mountViews config notifier mounted domains w).2 := by
  induction domains generalizing mounted w with
  | nil => exact refl w
  | cons d rest ih =>
    unfold World.mountViews
    split
    · rename_i heq
      exact (mountView heq).trans (ih _ _)
    · exact foldl drop _ w

theorem mountConsole (w : World) (config : Sync.Config) :
    Within Deed.Outside w (w.mountConsole config).2 := by
  unfold World.mountConsole
  split
  · exact refl w
  · split
    · exact refl w
    · rename_i center v heq
      have hviews := mountViews config (.center center) [] Domain.all v
      split
      · rename_i hmounted
        rw [hmounted] at hviews
        exact ((mountCenter heq).trans hviews).trans (calm (.write _ _))
      · rename_i hmounted
        rw [hmounted] at hviews
        exact ((mountCenter heq).trans hviews).trans (drop _ _)

end Within

end World

end VoiceAdmin.Timeline
