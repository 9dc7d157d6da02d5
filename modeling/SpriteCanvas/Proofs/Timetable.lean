import Mathlib.Logic.Function.Basic
import SpriteCanvas.Proofs.Armed

/-!
# Timetables

What is shown for a time has a slot, which holds the alarm that will end it.  A timetable says when
each of these things is over.  It is kept by slots and alarms if exactly the alarms in the slots are
armed, each for the time that the timetable says, but for those that are about to ring
(`Alarms.Kept`).  Setting, cancelling, taking and ringing keep it.
-/

namespace SpriteCanvas

namespace Schedule

theorem live_purge (s : Schedule) : s.purge.live = s.live := by
  fun_induction purge s with
  | case1 => rfl
  | case2 s top ht hl ih => exact ih
  | case3 => rfl

end Schedule

namespace Alarms

variable {a : Alarms} {j k : AlarmId} {e e' : Expiry} {deadline : Nat}

/-- The schedule is sound, and no entry has a number that is still to be given out. -/
structure Sound (a : Alarms) : Prop where
  schedule : a.schedule.Sound
  fresh : ∀ due ∈ a.schedule.heap.toList, due.alarm < a.next

/-- An alarm that is set, what it is for and when it is due. -/
abbrev Armed (a : Alarms) : AlarmId → Expiry → Nat → Prop := a.schedule.Armed

theorem sound_initial : initial.Sound := ⟨Schedule.sound_empty, nofun⟩

theorem Sound.lt_next (h : a.Sound) (ha : a.Armed k e deadline) : k < a.next :=
  h.fresh _ ha.2

theorem Sound.set (h : a.Sound) (clockStart now duration : Nat) (e : Expiry) :
    (a.set clockStart now duration e).2.Sound where
  schedule := h.schedule.insert (fun _ hd => Nat.lt_irrefl _ (h.fresh _ hd)) _ e
  fresh due hd := by
    rcases (Schedule.mem_heap_insert _ _ _ _ _).1 hd with rfl | hd
    · exact Nat.lt_succ_self _
    · exact Nat.lt_succ_of_lt (h.fresh due hd)

theorem Sound.armed_set (h : a.Sound) (clockStart now duration : Nat) :
    (a.set clockStart now duration e').2.Armed k e deadline
      ↔ (k = a.next ∧ e = e' ∧ deadline = Duration.deadline clockStart now duration)
        ∨ a.Armed k e deadline :=
  Schedule.armed_insert fun _ hd => Nat.lt_irrefl _ (h.fresh _ hd)

theorem Sound.cancel (h : a.Sound) (j : AlarmId) : (a.cancel j).Sound where
  schedule := (h.schedule.cancel j).purge
  fresh due hd := h.fresh due (Schedule.mem_heap_of_purge (s := a.schedule.cancel j) hd)

theorem armed_cancel : (a.cancel j).Armed k e deadline ↔ a.Armed k e deadline ∧ k ≠ j :=
  Schedule.armed_purge.trans Schedule.armed_cancel

theorem lookup_cancel (a : Alarms) (j k : AlarmId) :
    (a.cancel j).schedule.live.lookup k = if k = j then none else a.schedule.live.lookup k := by
  simp only [cancel, Schedule.live_purge, Schedule.cancel, Schedule.lookup_filter_ne]

/-! ## Cancelling several alarms -/

theorem next_cancelAll (a : Alarms) (ks : List AlarmId) : (ks.foldl cancel a).next = a.next := by
  induction ks generalizing a with
  | nil => rfl
  | cons j ks ih => exact ih (a.cancel j)

theorem Sound.cancelAll (h : a.Sound) (ks : List AlarmId) : (ks.foldl Alarms.cancel a).Sound := by
  induction ks generalizing a with
  | nil => exact h
  | cons j ks ih => exact ih (h.cancel j)

theorem armed_cancelAll (ks : List AlarmId) :
    (ks.foldl cancel a).Armed k e deadline ↔ a.Armed k e deadline ∧ k ∉ ks := by
  induction ks generalizing a with
  | nil => simp
  | cons j ks ih =>
    rw [List.foldl_cons, ih, armed_cancel, List.mem_cons, not_or, and_assoc]

theorem lookup_cancelAll_of_none (ks : List AlarmId) (h : a.schedule.live.lookup k = none) :
    (ks.foldl cancel a).schedule.live.lookup k = none := by
  induction ks generalizing a with
  | nil => exact h
  | cons j ks ih =>
    refine ih ?_
    rw [lookup_cancel]
    split
    · rfl
    · exact h

theorem foldl_cancel? {α : Type} (f : α → Option AlarmId) (xs : List α) (a : Alarms) :
    xs.foldl (fun a x => a.cancel? (f x)) a = (xs.filterMap f).foldl cancel a := by
  induction xs generalizing a with
  | nil => rfl
  | cons x xs ih =>
    rw [List.foldl_cons, ih, List.filterMap_cons]
    cases f x <;> rfl

theorem cancel?_eq_foldl (a : Alarms) (o : Option AlarmId) :
    a.cancel? o = o.toList.foldl cancel a := by
  cases o <;> rfl

end Alarms

/-- When what is shown for a time is over, where something is shown or was shown last. -/
abbrev Timetable := Expiry → Option Nat

/-- The alarm that will end what is shown. -/
abbrev Slots := Expiry → Option AlarmId

namespace Alarms

/-- Slots and alarms keep a timetable at a time, while some alarms are about to ring. -/
structure Kept (a : Alarms) (slots : Slots) (ringing : List (AlarmId × Expiry)) (clock : Nat)
    (table : Timetable) : Prop where
  sound : a.Sound
  /-- What is armed is in its slot, for the time of the timetable. -/
  armed : ∀ k e deadline, a.Armed k e deadline → slots e = some k ∧ table e = some deadline
  /-- What is about to ring is not live any more. -/
  rung : ∀ k e, (k, e) ∈ ringing → a.schedule.live.lookup k = none ∧ k < a.next
  /-- What is in a slot is armed, or due and about to ring. -/
  held : ∀ k e, slots e = some k → ∃ deadline, table e = some deadline
    ∧ (a.Armed k e deadline ∨ (k, e) ∈ ringing ∧ deadline ≤ clock)
  /-- What is no longer shown is over. -/
  elapsed : ∀ e deadline, table e = some deadline → slots e = none → deadline ≤ clock

namespace Kept

variable {a : Alarms} {slots : Slots} {ringing : List (AlarmId × Expiry)} {clock now : Nat}
  {table : Timetable} {k : AlarmId} {e e' : Expiry} {deadline : Nat}

theorem initial : Alarms.initial.Kept (fun _ => none) [] 0 fun _ => none where
  sound := sound_initial
  armed := nofun
  rung := nofun
  held := nofun
  elapsed := nofun

theorem mono (h : a.Kept slots ringing clock table) (hc : clock ≤ now) :
    a.Kept slots ringing now table where
  sound := h.sound
  armed := h.armed
  rung := h.rung
  held k e hk := by
    obtain ⟨deadline, ht, ha⟩ := h.held k e hk
    exact ⟨deadline, ht, ha.imp_right fun hr => ⟨hr.1, Nat.le_trans hr.2 hc⟩⟩
  elapsed e deadline ht hs := Nat.le_trans (h.elapsed e deadline ht hs) hc

theorem lt_next (h : a.Kept slots ringing clock table) (hk : slots e = some k) : k < a.next := by
  obtain ⟨deadline, -, ha | ⟨hr, -⟩⟩ := h.held k e hk
  · exact h.sound.lt_next ha
  · exact (h.rung k e hr).2

/-- An armed alarm is in no slot but its own. -/
theorem slot_eq (h : a.Kept slots ringing clock table) (ha : a.Armed k e deadline)
    (hk : slots e' = some k) : e' = e := by
  obtain ⟨deadline', -, ha' | ⟨hr, -⟩⟩ := h.held k e' hk
  · exact ha'.expiry_eq ha
  · cases (h.rung k e' hr).1.symm.trans ha.1

/-- Emptying slots and cancelling what was in them. -/
theorem clear (h : a.Kept slots ringing clock table) (S : Expiry → Prop) [DecidablePred S]
    {ks : List AlarmId} (hks : ∀ k, k ∈ ks ↔ ∃ e, S e ∧ slots e = some k) :
    (ks.foldl cancel a).Kept (fun e => if S e then none else slots e) ringing clock
      (fun e => if S e then none else table e) where
  sound := h.sound.cancelAll ks
  armed k e deadline ha := by
    obtain ⟨ha, hk⟩ := (armed_cancelAll ks).1 ha
    obtain ⟨hs, ht⟩ := h.armed k e deadline ha
    have hS : ¬ S e := fun hS => hk ((hks k).2 ⟨e, hS, hs⟩)
    rw [if_neg hS, if_neg hS]
    exact ⟨hs, ht⟩
  rung k e hr := by
    rw [next_cancelAll]
    exact ⟨lookup_cancelAll_of_none ks (h.rung k e hr).1, (h.rung k e hr).2⟩
  held k e hk := by
    split at hk
    · cases hk
    · rename_i hS
      obtain ⟨deadline, ht, ha⟩ := h.held k e hk
      refine ⟨deadline, (if_neg hS).trans ht, ha.imp_left fun ha => ?_⟩
      refine (armed_cancelAll ks).2 ⟨ha, fun hmem => hS ?_⟩
      obtain ⟨e', hS', hk'⟩ := (hks k).1 hmem
      exact h.slot_eq ha hk' ▸ hS'
  elapsed e deadline ht hs := by
    split at ht
    · cases ht
    · rename_i hS
      rw [if_neg hS] at hs
      exact h.elapsed e deadline ht hs

/-- Setting an alarm in a slot, in place of the one that was there. -/
theorem set (h : a.Kept slots ringing clock table) (clockStart now duration : Nat) (e : Expiry) :
    ((a.set clockStart now duration e).2.cancel? (slots e)).Kept
      (Function.update slots e (some a.next)) ringing clock
      (Function.update table e (some (Duration.deadline clockStart now duration))) := by
  rw [cancel?_eq_foldl]
  have hself : ∀ k, k ∈ (slots e).toList ↔ slots e = some k := fun k => Option.mem_toList
  refine ⟨(h.sound.set clockStart now duration e).cancelAll _, fun k e' deadline ha => ?_,
    fun k e' hr => ?_, fun k e' hk => ?_, fun e' deadline ht hs => ?_⟩
  · obtain ⟨ha, hk⟩ := (armed_cancelAll _).1 ha
    rcases (h.sound.armed_set clockStart now duration).1 ha with ⟨rfl, rfl, rfl⟩ | ha
    · exact ⟨Function.update_self _ _ _, Function.update_self _ _ _⟩
    · obtain ⟨hs, ht⟩ := h.armed k e' deadline ha
      have hne : e' ≠ e := by
        rintro rfl
        exact hk ((hself k).2 hs)
      rw [Function.update_of_ne hne, Function.update_of_ne hne]
      exact ⟨hs, ht⟩
  · obtain ⟨hl, hlt⟩ := h.rung k e' hr
    rw [next_cancelAll]
    refine ⟨lookup_cancelAll_of_none _ ?_, Nat.lt_succ_of_lt hlt⟩
    refine (Schedule.lookup_insert _ _ _ _ _).trans ?_
    rw [if_neg (Nat.ne_of_lt hlt), hl]
  · by_cases hne : e' = e
    · subst hne
      obtain rfl : a.next = k := by simpa using hk
      refine ⟨_, Function.update_self _ _ _, .inl ((armed_cancelAll _).2 ⟨?_, fun hmem => ?_⟩)⟩
      · exact (h.sound.armed_set clockStart now duration).2 (.inl ⟨rfl, rfl, rfl⟩)
      · exact Nat.lt_irrefl _ (h.lt_next ((hself _).1 hmem))
    · rw [Function.update_of_ne hne] at hk
      obtain ⟨deadline, ht, ha⟩ := h.held k e' hk
      refine ⟨deadline, (Function.update_of_ne hne _ _).trans ht, ha.imp_left fun ha => ?_⟩
      -- An alarm sits in one slot only, so what is cancelled is not of this one.
      refine (armed_cancelAll _).2
        ⟨(h.sound.armed_set clockStart now duration).2 (.inr ha), fun hmem => ?_⟩
      exact hne (h.slot_eq ha ((hself k).1 hmem)).symm
  · by_cases hne : e' = e
    · subst hne
      simp at hs
    · rw [Function.update_of_ne hne] at ht hs
      exact h.elapsed e' deadline ht hs

/-- The alarms that are due are taken and will ring. -/
theorem collect (h : a.Kept slots [] clock table) (hc : clock ≤ now) :
    Alarms.Kept { a with schedule := (a.schedule.takeDue now).2 } slots
      (a.schedule.takeDue now).1 now table := by
  obtain ⟨hsound, hrest, hdue⟩ := h.sound.schedule.takeDue now
  have hheap := (h.sound.schedule.takes_takeDue now).heap
  refine ⟨⟨hsound, fun due hd => h.sound.fresh due (hheap due hd)⟩,
    fun k e deadline ha => ?_, fun k e hr => ?_, fun k e hk => ?_, fun e deadline ht hs => ?_⟩
  · exact h.armed k e deadline ((hrest k e deadline).1 ha).1
  · obtain ⟨deadline, hle, ha⟩ := (hdue k e).1 hr
    refine ⟨?_, h.sound.lt_next ha⟩
    -- If it were live still it would be armed, with a deadline past `now`, and alarms have one.
    by_contra hlive
    obtain ⟨e', hl⟩ := Option.ne_none_iff_exists'.1 hlive
    obtain ⟨deadline', ha'⟩ := hsound.armed_of_live hl
    obtain ⟨ha', hlt⟩ := (hrest k e' deadline').1 ha'
    obtain rfl := ha.expiry_eq ha'
    have := h.sound.schedule.deadline_eq ha ha'
    omega
  · obtain ⟨deadline, ht, ha | ⟨hr, -⟩⟩ := h.held k e hk
    · refine ⟨deadline, ht, ?_⟩
      by_cases hle : deadline ≤ now
      · exact .inr ⟨(hdue k e).2 ⟨deadline, hle, ha⟩, hle⟩
      · exact .inl ((hrest k e deadline).2 ⟨ha, Nat.lt_of_not_le hle⟩)
    · cases hr
  · exact Nat.le_trans (h.elapsed e deadline ht hs) hc

/-- The alarm of a slot rings, and empties it. -/
theorem ring_held (h : a.Kept slots ((k, e) :: ringing) clock table) (hk : slots e = some k) :
    a.Kept (Function.update slots e none) ringing clock table := by
  refine ⟨h.sound, fun k' e' deadline ha => ?_,
    fun k' e' hr => h.rung k' e' (List.mem_cons_of_mem _ hr), fun k' e' hk' => ?_,
    fun e' deadline ht hs => ?_⟩
  · obtain ⟨hs, ht⟩ := h.armed k' e' deadline ha
    have hne : e' ≠ e := by
      rintro rfl
      cases hs.symm.trans hk
      cases (h.rung k e' List.mem_cons_self).1.symm.trans ha.1
    exact ⟨(Function.update_of_ne hne _ _).trans hs, ht⟩
  · by_cases hne : e' = e
    · subst hne
      simp at hk'
    · rw [Function.update_of_ne hne] at hk'
      obtain ⟨deadline, ht, ha⟩ := h.held k' e' hk'
      refine ⟨deadline, ht, ha.imp_right fun hr => ⟨?_, hr.2⟩⟩
      rcases List.mem_cons.1 hr.1 with heq | hr
      · cases heq
        exact absurd rfl hne
      · exact hr
  · by_cases hne : e' = e
    · subst hne
      obtain ⟨deadline', ht', ha | hr⟩ := h.held k e' hk
      · cases (h.rung k e' List.mem_cons_self).1.symm.trans ha.1
      · cases ht'.symm.trans ht
        exact hr.2
    · rw [Function.update_of_ne hne] at hs
      exact h.elapsed e' deadline ht hs

/-- Another alarm rings for nothing. -/
theorem ring_stale (h : a.Kept slots ((k, e) :: ringing) clock table) (hk : slots e ≠ some k) :
    a.Kept slots ringing clock table := by
  refine ⟨h.sound, h.armed, fun k' e' hr => h.rung k' e' (List.mem_cons_of_mem _ hr),
    fun k' e' hk' => ?_, h.elapsed⟩
  obtain ⟨deadline, ht, ha⟩ := h.held k' e' hk'
  refine ⟨deadline, ht, ha.imp_right fun hr => ⟨?_, hr.2⟩⟩
  rcases List.mem_cons.1 hr.1 with heq | hr
  · cases heq
    exact absurd hk' hk
  · exact hr

/-- While no alarm is due, exactly what is not over is shown. -/
theorem isSome_iff (h : a.Kept slots [] clock table)
    (hd : a.schedule.nextDeadline.1.any (· ≤ clock) = false) :
    (slots e).isSome ↔ ∃ deadline, table e = some deadline ∧ clock < deadline := by
  constructor
  · intro hs
    obtain ⟨k, hk⟩ := Option.isSome_iff_exists.1 hs
    obtain ⟨deadline, ht, ha | ⟨hr, -⟩⟩ := h.held k e hk
    · obtain ⟨t, hle, hnext⟩ := h.sound.schedule.nextDeadline_le ha
      rw [hnext, Option.any_some, decide_eq_false_iff_not] at hd
      exact ⟨deadline, ht, Nat.lt_of_lt_of_le (Nat.lt_of_not_le hd) hle⟩
    · cases hr
  · rintro ⟨deadline, ht, hlt⟩
    by_contra hs
    exact Nat.lt_irrefl _ (Nat.lt_of_lt_of_le hlt (h.elapsed e deadline ht (by simpa using hs)))

end Kept

end Alarms

end SpriteCanvas
