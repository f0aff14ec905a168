import VoiceAdmin.Proofs.Alerts.Interleaving

namespace VoiceAdmin.Alerts

/-- The ids that a history enqueues, in order. -/
def arrivals (history : List Action) : List String :=
  history.filterMap fun
    | .enqueue n _ => some n.id
    | _ => none

/-- A run, and the same run with expiries of instants up to a limit put in anywhere. -/
inductive Swept (limit : Nat) : List Action → List Action → Prop where
  | start : Swept limit [] []
  | act {run swept : List Action} (a : Action) : Swept limit run swept →
    Swept limit (run ++ [a]) (swept ++ [a])
  | sweep {run swept : List Action} (now : Nat) (due : now ≤ limit) : Swept limit run swept →
    Swept limit run (swept ++ [.expire now])

theorem arrivals_append (history more : List Action) :
    arrivals (history ++ more) = arrivals history ++ arrivals more :=
  List.filterMap_append

theorem mem_arrivals {history : List Action} {n : Notification} {t : Nat}
    (h : .enqueue n t ∈ history) : n.id ∈ arrivals history :=
  List.mem_filterMap.mpr ⟨_, h, rfl⟩

namespace Swept

variable {limit : Nat} {run swept : List Action}

theorem arrivals (h : Swept limit run swept) : arrivals swept = arrivals run := by
  induction h with
  | start => rfl
  | act a _ ih => rw [arrivals_append, arrivals_append, ih]
  | sweep _ _ _ ih =>
    rw [arrivals_append, ih]
    exact List.append_nil _

/-- Nothing is enqueued that the run itself does not enqueue. -/
theorem enqueued (h : Swept limit run swept) {n : Notification} {t : Nat}
    (hm : .enqueue n t ∈ swept) : .enqueue n t ∈ run := by
  induction h with
  | start => exact hm
  | act a _ ih =>
    rw [List.mem_append] at hm ⊢
    exact hm.imp_left ih
  | sweep now _ _ ih =>
    rcases List.mem_append.mp hm with hm | hm
    · exact ih hm
    · cases List.mem_singleton.mp hm

end Swept

namespace Queue

open Alert (known place)

variable {p q r : Queue} {ttl : Nat} {id : String}

theorem not_contains_of_fresh {history : List Action} (hq : after ttl history = .ok q)
    (h : id ∉ arrivals history) : q.contains id = false :=
  contains_eq_false.mpr fun _ he hid => h (hid ▸ mem_arrivals (arrived hq he))

/-- What is newly there was enqueued. -/
theorem contains_act (h : q.Lawful) {a : Action} (ha : q.act a = .ok r) (hc : r.contains id = true) :
    q.contains id = true ∨ id ∈ arrivals [a] := by
  obtain ⟨-, -, halerts⟩ := h.act ha
  rw [contains_eq_known, halerts] at hc
  rw [contains_eq_known]
  cases a with
  | enqueue n arrival =>
    by_cases hid : n.id = id
    · exact .inr (by simp [arrivals, hid])
    · exact .inl (Action.known_enqueue_other hid arrival ▸ hc)
  | dismiss other =>
    obtain ⟨a, ha, hid⟩ := Alert.known_iff.mp hc
    exact .inl (Alert.known_iff.mpr ⟨a, List.mem_of_mem_filter ha, hid⟩)
  | expire now =>
    obtain ⟨a, ha, hid⟩ := Alert.known_iff.mp hc
    exact .inl (Alert.known_iff.mpr ⟨a, List.mem_of_mem_filter ha, hid⟩)

theorem contains_run (h : q.Lawful) {more : List Action} (hr : more.foldlM act q = .ok r)
    (hc : r.contains id = true) : q.contains id = true ∨ id ∈ arrivals more := by
  induction more generalizing q with
  | nil =>
    cases hr
    exact .inl hc
  | cons a more ih =>
    rw [List.foldlM_cons] at hr
    cases ha : q.act a with
    | error e =>
      rw [ha] at hr
      cases hr
    | ok p =>
      rw [ha] at hr
      rw [show a :: more = [a] ++ more from rfl, arrivals_append, List.mem_append]
      rcases ih (h.act ha).1 hr with hp | hm
      · exact (contains_act h ha hp).imp_right .inl
      · exact .inr (.inr hm)

/-- What an arrival of an absent id leaves behind follows from what is left of the others. -/
theorem filter_place_congr {new : Alert} {stays : Alert → Bool} {shown others : List Alert}
    (hs : Alert.Sorted shown) (ho : Alert.Sorted others) (h : shown.filter stays = others.filter stays) :
    (place new shown).filter stays = (place new others).filter stays := by
  by_cases hnew : stays new = true
  · rw [Alert.filter_place hs hnew, Alert.filter_place ho hnew, h]
  · rw [Alert.filter_place_of_not hnew, Alert.filter_place_of_not hnew, h]

/-- An earlier expiry takes nothing out that a later one would leave in. -/
theorem filter_of_le {earlier later : Nat} (h : earlier ≤ later) (ttl : Nat) (shown : List Alert) :
    (shown.filter fun a => earlier < a.arrival + ttl).filter (fun a => later < a.arrival + ttl) =
      shown.filter fun a => later < a.arrival + ttl := by
  rw [List.filter_filter]
  refine List.filter_congr fun a _ => ?_
  rw [← Bool.decide_and, decide_eq_decide]
  omega

/-- Two queues of which the first went through more expiries up to an instant: they hold the same beyond
it, and the clock can tell the deadline of all that is missing from the first. -/
structure Trails (limit : Nat) (p q : Queue) : Prop where
  beyond : p.alerts.filter (fun a => limit < a.arrival + q.ttl) =
    q.alerts.filter fun a => limit < a.arrival + q.ttl
  missing : ∀ a ∈ q.alerts, a ∈ p.alerts ∨ Told a.arrival q.ttl

namespace Trails

variable {limit : Nat} {p' q' : Queue}

/-- An action that takes out the same of both. -/
theorem filter (h : Trails limit p q) {stays : Alert → Bool} (httl : q'.ttl = q.ttl)
    (hp : p'.alerts = p.alerts.filter stays) (hq : q'.alerts = q.alerts.filter stays) :
    Trails limit p' q' where
  beyond := by rw [httl, hp, hq, Action.filter_comm, h.beyond, Action.filter_comm]
  missing a ha := by
    rw [hq, List.mem_filter] at ha
    rw [hp, httl, List.mem_filter]
    exact (h.missing a ha.1).imp_left fun hm => ⟨hm, ha.2⟩

theorem place (h : Trails limit p q) (hpl : p.Lawful) (hql : q.Lawful) {new : Alert}
    (httl : q'.ttl = q.ttl) (hp : p'.alerts = Alert.place new p.alerts)
    (hq : q'.alerts = Alert.place new q.alerts) : Trails limit p' q' where
  beyond := by
    rw [httl, hp, hq]
    exact filter_place_congr hpl.sorted_alerts hql.sorted_alerts h.beyond
  missing a ha := by
    rw [hq, Alert.mem_place] at ha
    rw [hp, httl, Alert.mem_place]
    rcases ha with rfl | ha
    · exact .inl (.inl rfl)
    · exact (h.missing a ha).imp_left .inr

/-- An expiry of the first alone. -/
theorem sweep (h : Trails limit p q) {now : Nat} (due : now ≤ limit) (httl : p.ttl = q.ttl)
    (ht : p.Timed) (hp : p'.alerts = p.alerts.filter fun a => now < a.arrival + p.ttl) :
    Trails limit p' q where
  beyond := by rw [hp, httl, filter_of_le due, h.beyond]
  missing a ha := by
    rcases h.missing a ha with hm | htold
    · exact .inr (httl ▸ timed_iff.mp ht a hm)
    · exact .inr htold

end Trails

theorem timed_of_expire {now : Nat} (h : q.act (.expire now) = .ok r) : q.Timed := by
  by_contra ht
  rw [act, expire_untimed ht] at h
  cases h

/-- Where the run with more expiries goes through, the run itself does, and trails it. -/
theorem exists_trails {limit : Nat} {run swept : List Action} (h : Swept limit run swept)
    (honce : (arrivals run).Nodup) (hp : after ttl swept = .ok p) :
    ∃ q, after ttl run = .ok q ∧ Trails limit p q := by
  induction h generalizing p with
  | start => exact ⟨p, hp, rfl, fun a ha => .inl ha⟩
  | @act run swept a h ih =>
    rw [arrivals_append] at honce
    obtain ⟨p₀, hp₀, ha⟩ := after_concat.mp hp
    obtain ⟨q₀, hq₀, htrails⟩ := ih (List.Nodup.of_append_left honce) hp₀
    obtain ⟨hpl, hpttl⟩ := after_lawful hp₀
    obtain ⟨hql, hqttl⟩ := after_lawful hq₀
    obtain ⟨-, -, hpalerts⟩ := hpl.act ha
    have hgoes : ∃ q, q₀.act a = .ok q := by
      by_contra hnone
      obtain ⟨⟨now, rfl⟩, ht⟩ := hql.act_breaks.mp (not_exists.mp hnone)
      refine ht (timed_iff.mpr fun x hx => ?_)
      rcases htrails.missing x hx with hm | htold
      · rw [hqttl, ← hpttl]
        exact timed_iff.mp (timed_of_expire ha) x hm
      · exact htold
    obtain ⟨q, hq⟩ := hgoes
    obtain ⟨-, hsame, hqalerts⟩ := hql.act hq
    refine ⟨q, after_concat.mpr ⟨q₀, hq₀, hq⟩, ?_⟩
    rw [hpttl, ← hqttl] at hpalerts
    cases a with
    | enqueue n arrival =>
      have hfresh : n.id ∉ arrivals run := fun hm =>
        List.disjoint_of_nodup_append honce hm (by simp [arrivals])
      have hpc := not_contains_of_fresh hp₀ (h.arrivals ▸ hfresh)
      have hqc := not_contains_of_fresh hq₀ hfresh
      rw [contains_eq_known] at hpc hqc
      rw [Action.onDisplay_unknown hpc] at hpalerts
      rw [Action.onDisplay_unknown hqc] at hqalerts
      exact htrails.place hpl hql hsame hpalerts hqalerts
    | dismiss id => exact htrails.filter hsame hpalerts hqalerts
    | expire now => exact htrails.filter hsame hpalerts hqalerts
  | @sweep run swept now due h ih =>
    obtain ⟨p₀, hp₀, ha⟩ := after_concat.mp hp
    obtain ⟨q, hq, htrails⟩ := ih honce hp₀
    obtain ⟨hpl, hpttl⟩ := after_lawful hp₀
    obtain ⟨-, -, hpalerts⟩ := hpl.act ha
    exact ⟨q, hq, htrails.sweep due (hpttl.trans (after_lawful hq).2.symm) (timed_of_expire ha) hpalerts⟩

/-- After one more expiry at the limit the two match, since what it leaves lies beyond the limit. -/
theorem exists_matches {limit : Nat} {run swept : List Action} (h : Swept limit run swept)
    (honce : (arrivals run).Nodup) (hp : after ttl (swept ++ [.expire limit]) = .ok p) :
    ∃ q, after ttl (run ++ [.expire limit]) = .ok q ∧ p.Matches q := by
  have honce' : (arrivals (run ++ [.expire limit])).Nodup := by
    rw [arrivals_append]
    simpa [arrivals] using honce
  obtain ⟨q, hq, htrails⟩ := exists_trails (.act (.expire limit) h) honce' hp
  obtain ⟨p₀, hp₀, hpact⟩ := after_concat.mp hp
  obtain ⟨q₀, hq₀, hqact⟩ := after_concat.mp hq
  obtain ⟨hpl, hpttl⟩ := after_lawful hp
  obtain ⟨hql, hqttl⟩ := after_lawful hq
  obtain ⟨-, hpsame, hpalerts⟩ := (after_lawful hp₀).1.act hpact
  obtain ⟨-, hqsame, hqalerts⟩ := (after_lawful hq₀).1.act hqact
  refine ⟨q, hq, hpl, hql, hpttl.trans hqttl.symm, ?_⟩
  have hbeyond := htrails.beyond
  rw [hpalerts, hqalerts, ← hpsame, ← hqsame, hpttl, hqttl] at hbeyond ⊢
  simp only [Action.onDisplay, List.filter_filter, Bool.and_self] at hbeyond ⊢
  exact hbeyond

/-- If no id comes twice, expiries up to an instant make no difference to what an expiry at that instant
leaves in the queue, however many there are and wherever, as long as none of them breaks off: a periodic
one does as well as one for each entry. None breaks off if the clock can tell the deadlines of all that
arrives. And in any run an expiry names only ids that no earlier one named, unless they were enqueued
again. -/
theorem expire_swept (ttl : Nat) :
    (∀ limit run swept, (arrivals run).Nodup → Swept limit run swept →
      (∀ p, after ttl (swept ++ [.expire limit]) = .ok p →
        ∃ q, after ttl (run ++ [.expire limit]) = .ok q ∧ p.Alike q) ∧
      ((∀ n t, .enqueue n t ∈ run → t + ttl ≤ lastInstant) →
        ∃ p, after ttl (swept ++ [.expire limit]) = .ok p)) ∧
    (∀ limit run periodic timed, (arrivals run).Nodup → Swept limit run periodic →
      Swept limit run timed → ∀ p q, after ttl (periodic ++ [.expire limit]) = .ok p →
        after ttl (timed ++ [.expire limit]) = .ok q → p.Alike q) ∧
    ∀ before s between t q r ids again rest rest',
      after ttl before = .ok q → q.expire s = .ok (ids, rest) →
      after ttl (before ++ [.expire s] ++ between) = .ok r → r.expire t = .ok (again, rest') →
      ∀ id ∈ ids, id ∈ again → id ∈ arrivals between := by
  refine ⟨fun limit run swept honce h => ⟨fun p hp => ?_, fun htold => ?_⟩, ?_, ?_⟩
  · obtain ⟨q, hq, hmatch⟩ := exists_matches h honce hp
    exact ⟨q, hq, hmatch.alike⟩
  · refine after_told fun n t hm => htold n t ?_
    rcases List.mem_append.mp hm with hm | hm
    · exact h.enqueued hm
    · cases List.mem_singleton.mp hm
  · intro limit run periodic timed honce hperiodic htimed p q hp hq
    obtain ⟨x, hx, hpx⟩ := exists_matches hperiodic honce hp
    obtain ⟨y, hy, hqy⟩ := exists_matches htimed honce hq
    obtain rfl : x = y := Except.ok.inj (hx.symm.trans hy)
    exact Matches.alike ⟨hpx.left, hqy.left, hpx.ttl.trans hqy.ttl.symm, hpx.alerts.trans hqy.alerts.symm⟩
  · intro before s between t q r ids again rest rest' hq hfirst hr hagain id hid hid'
    obtain ⟨hql, -⟩ := after_lawful hq
    obtain ⟨-, rfl, rfl⟩ := hql.expire_ok hfirst
    have hgone := ((hql.mem_due_iff s).mp hid).2
    have hact : q.act (.expire s) = .ok (q.keep fun a => s < a.arrival + q.ttl) := by
      rw [act, hfirst]
      rfl
    have hmid := after_concat.mpr ⟨q, hq, hact⟩
    obtain ⟨hrl, -⟩ := after_lawful hr
    obtain ⟨-, rfl, -⟩ := hrl.expire_ok hagain
    rw [after_more hmid] at hr
    rcases contains_run (after_lawful hmid).1 hr ((hrl.mem_due_iff t).mp hid').1 with hc | hm
    · rw [hgone] at hc
      cases hc
    · exact hm

/-- The expiry at 13 takes out `a`, which the run itself still holds; after one at 14 both hold `c` alone. -/
theorem expire_swept_early :
    let alert id : Notification := ⟨id, "", "", .info⟩
    let run := [.enqueue (alert "a") 5, .enqueue (alert "b") 6, .enqueue (alert "c") 7, .dismiss "b"]
    let swept := [.expire 3, .enqueue (alert "a") 5, .enqueue (alert "b") 6, .expire 13,
      .enqueue (alert "c") 7, .dismiss "b", .expire 14]
    (arrivals run).Nodup ∧ Swept 14 run swept ∧
      (after 8 swept).map (fun q => q.contains "a") = .ok false ∧
      (after 8 run).map (fun q => q.contains "a") = .ok true ∧
      ∃ p q, after 8 (swept ++ [.expire 14]) = .ok p ∧ after 8 (run ++ [.expire 14]) = .ok q ∧
        p.Alike q := by
  intro alert run swept
  have honce : (arrivals run).Nodup := by decide
  have h : Swept 14 run swept :=
    .sweep 14 (by decide) <| .act (.dismiss "b") <| .act (.enqueue (alert "c") 7) <|
      .sweep 13 (by decide) <| .act (.enqueue (alert "b") 6) <| .act (.enqueue (alert "a") 5) <|
        .sweep 3 (by decide) .start
  obtain ⟨hsame, hgoes⟩ := (expire_swept 8).1 14 run swept honce h
  obtain ⟨p, hp⟩ := hgoes fun n t hm => by
    have ht : t ≤ 7 := by
      simp only [run, List.mem_cons, Action.enqueue.injEq, reduceCtorEq, List.not_mem_nil,
        or_false] at hm
      rcases hm with ⟨-, rfl⟩ | ⟨-, rfl⟩ | ⟨-, rfl⟩ <;> decide
    exact Nat.le_trans (Nat.add_le_add_right ht 8) (by decide)
  obtain ⟨q, hq, halike⟩ := hsame p hp
  exact ⟨honce, h, by decide, by decide, p, q, hp, hq, halike⟩

end Queue

end VoiceAdmin.Alerts
