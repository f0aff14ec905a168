import VoiceAdmin.Proofs.Timeline.Settling

namespace VoiceAdmin.Timeline

/-- The tasks of a console, each with the topic that it listens to. -/
def ConsoleTasks.holders (c : ConsoleTasks) : List (Topic × Nat) :=
  (.notification, c.center) :: c.sessions.map fun s => (s.1.topic, s.2)

namespace World

variable {w v : World} {topic : Topic} {id sub : Nat}

/-- Once everything has come to rest, who was told to stop has ended. -/
theorem settle_ends (hw : w.Lawful) (hh : w.Heeds id)
    (h : w.Running topic id sub ∧ w.Told id ∨ w.Ended topic id sub) : w.settle.Ended topic id sub := by
  obtain ⟨log, hcourse⟩ := Goes.settle w
  rcases hcourse.stopping hw h with ⟨-, ht⟩ | he
  · obtain ⟨hready, hdeferred⟩ := settle_idle hw
    have hmem := hcourse.heeds hh ht
    rw [hready, hdeferred] at hmem
    simp at hmem
  · exact he

theorem settle_stops (hw : w.Lawful) (hh : w.Heeds id)
    (h : w.Running topic id sub ∨ w.Ended topic id sub) (hv : Within Deed.Outside w v)
    (ht : w.Running topic id sub → v.Told id) : v.settle.Ended topic id sub := by
  have hgoes : w.Goes v := .within hv
  refine settle_ends (hgoes.lawful hw) (hgoes.heeds hh) ?_
  rcases h with hr | he
  · exact .inl ⟨hv.running hw hr, ht hr⟩
  · exact .inr (hgoes.ended hw he)

theorem topic_ne_notification (d : Domain) : d.topic ≠ .notification := by cases d <;> nofun

/-- A session that is asked to unmount is told to stop, and so is everybody who was before. -/
theorem Running.told_control (h : w.Running topic id sub) (ht : topic ≠ .notification) :
    (w.control id .unmount).Told id := by
  obtain ⟨task, hf, hs, hlistens⟩ := h.listens
  unfold control
  rw [hf]
  cases task with
  | session d task =>
    exact ⟨_, (find?_wake _ _ _).trans (find?_setTask_self hf _), by simp [Task.told]⟩
  | center task => exact absurd (hlistens _ rfl).symm ht
  | dropped sub => exact ⟨_, hf, rfl⟩
  | _ => cases hs

theorem Running.told_send (h : w.Running .notification id sub) :
    (w.send (.center id) .shutdown).Told id := by
  obtain ⟨task, hf, hs, hlistens⟩ := h.listens
  unfold send
  dsimp only
  rw [hf]
  cases task with
  | session d task => exact absurd (hlistens _ rfl) (topic_ne_notification d)
  | center task =>
    exact ⟨_, (find?_wake _ _ _).trans (find?_setTask_self hf _), by simp [Task.told]⟩
  | dropped sub => exact ⟨_, hf, rfl⟩
  | _ => cases hs

theorem unmountView_ends (hw : w.Lawful) (hh : w.Heeds id)
    (h : w.Running topic id sub ∨ w.Ended topic id sub) (ht : topic ≠ .notification) :
    (w.unmountView id).Ended topic id sub :=
  settle_stops hw hh h (.plain (.control w id .unmount)) fun hr => hr.told_control ht

theorem unmountCenter_ends (hw : w.Lawful) (hh : w.Heeds id)
    (h : w.Running .notification id sub ∨ w.Ended .notification id sub) :
    (w.unmountCenter id).Ended .notification id sub :=
  settle_stops hw hh h ((Within.send w (.center id) .shutdown).mono fun _ => Deed.outside_of_isMessage)
    fun hr => hr.told_send

/-- Whoever is dropped, with or without others, has ended once everything has come to rest. -/
theorem foldl_drop_ends (hw : w.Lawful) (hh : w.Heeds id)
    (h : w.Running topic id sub ∨ w.Ended topic id sub) {ids : List Nat} (hm : id ∈ ids) :
    (ids.foldl drop w).settle.Ended topic id sub :=
  settle_stops hw hh h (.foldl .drop ids w) fun hr => ⟨_, foldl_drop_holds hr.holds hm, rfl⟩

theorem foldl_unmountView_ends {sessions : List (Domain × Nat)} {d : Domain} (hw : w.Lawful)
    (hh : w.Heeds id) (h : w.Running d.topic id sub ∨ w.Ended d.topic id sub) (hm : (d, id) ∈ sessions) :
    (sessions.foldl (fun w s => w.unmountView s.2) w).Ended d.topic id sub := by
  have hgoes : ∀ (w : World) (s : Domain × Nat), w.Goes (w.unmountView s.2) := fun w s => .unmountView w s.2
  induction sessions generalizing w with
  | nil => cases hm
  | cons s sessions ih =>
    have hlawful := (hgoes w s).lawful hw
    rcases List.mem_cons.mp hm with rfl | hm
    · exact (Goes.foldl hgoes sessions _).ended hlawful
        (unmountView_ends hw hh h (topic_ne_notification d))
    · exact ih hlawful ((hgoes w s).heeds hh) ((hgoes w s).running hw h) hm

theorem unmountConsole_ends {console : ConsoleTasks} (hw : w.Lawful) (hh : w.Heeds id)
    (h : w.Running topic id sub ∨ w.Ended topic id sub) (hm : (topic, id) ∈ console.holders) :
    (w.unmountConsole console).Ended topic id sub := by
  let viewless := console.sessions.foldl (fun w s => w.unmountView s.2) w
  have hviews : w.Goes viewless :=
    Goes.foldl (fun w (s : Domain × Nat) => Goes.unmountView w s.2) console.sessions w
  have hcenter : viewless.Goes (viewless.unmountCenter console.center) := .unmountCenter _ _
  have hlawful := hviews.lawful hw
  unfold unmountConsole
  refine Goes.ended (.aside (.calm (.write _ _))) (hcenter.lawful hlawful) ?_
  rcases List.mem_cons.mp hm with heq | hm
  · cases heq
    exact unmountCenter_ends hlawful (hviews.heeds hh) (hviews.running hw h)
  · obtain ⟨⟨d, i⟩, hs, heq⟩ := List.mem_map.mp hm
    cases heq
    exact hcenter.ended hlawful (foldl_unmountView_ends hw hh h hs)

theorem dropConsole_ends {console : ConsoleTasks} (hw : w.Lawful) (hh : w.Heeds id)
    (h : w.Running topic id sub ∨ w.Ended topic id sub) (hm : (topic, id) ∈ console.holders) :
    (w.dropConsole console).settle.Ended topic id sub := by
  refine foldl_drop_ends hw hh h ?_
  have hids : console.holders.map Prod.snd = console.center :: console.sessions.map Prod.snd := by
    simp [ConsoleTasks.holders, Function.comp_def]
  exact hids ▸ List.mem_map_of_mem hm

end World

end VoiceAdmin.Timeline
