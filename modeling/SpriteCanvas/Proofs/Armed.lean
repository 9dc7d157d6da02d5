import Mathlib.Data.List.Nodup
import SpriteCanvas.Alarm.Schedule
import SpriteCanvas.Proofs.HeapOrder

/-!
# Armed alarms

An alarm is armed for a deadline if it is live and its entry is in the heap.  While a schedule is
sound, each of its operations is known by what it does to the armed alarms: setting arms one
(`armed_insert`), cancelling disarms one (`armed_cancel`), purging changes nothing (`armed_purge`),
and taking the due alarms gives those with a deadline up to now, in order, and disarms them
(`Takes`, `Sound.takes_takeDue`).
-/

namespace SpriteCanvas

namespace Due

theorem le_iff {a b : Due} :
    a.le b ↔ a.deadline < b.deadline
      ∨ (a.deadline = b.deadline ∧ @LE.le Nat _ a.alarm b.alarm) := by
  simp [le]

theorem le_refl (a : Due) : a.le a := le_iff.2 (.inr ⟨rfl, Nat.le_refl _⟩)

theorem le_trans (a b c : Due) (hab : a.le b) (hbc : b.le c) : a.le c := by
  rw [le_iff] at *
  omega

theorem le_total (a b : Due) : a.le b ∨ b.le a := by
  rw [le_iff, le_iff]
  omega

theorem deadline_le {a b : Due} (h : a.le b) : a.deadline ≤ b.deadline := by
  rw [le_iff] at h
  omega

end Due

/-- An alarm with its deadline and what it is for. -/
structure PlainAlarm extends Due where
  expiry : Expiry
  deriving DecidableEq, Repr

namespace PlainAlarm

/-- The one due earlier comes first, and of one time the one with the lower number. -/
def le (a b : PlainAlarm) : Bool := a.toDue.le b.toDue

/-- What is given out of an alarm that is due. -/
def given (a : PlainAlarm) : AlarmId × Expiry := (a.alarm, a.expiry)

end PlainAlarm

namespace Schedule

theorem lookup_filter_ne {α : Type} (live : List (AlarmId × α)) (j k : AlarmId) :
    (live.filter (·.1 ≠ j)).lookup k = if k = j then none else live.lookup k := by
  induction live with
  | nil => simp
  | cons a live ih =>
    obtain ⟨i, e⟩ := a
    by_cases hi : i = j
    · subst hi
      rw [List.filter_cons_of_neg (by simp), ih, List.lookup_cons]
      by_cases hk : k = i
      · simp [hk]
      · rw [if_neg hk, if_neg hk, beq_false_of_ne hk]
    · rw [List.filter_cons_of_pos (by simpa using hi), List.lookup_cons, List.lookup_cons, ih]
      by_cases hk : k = i
      · subst hk
        simp [hi]
      · simp [beq_false_of_ne hk]

/-- A live alarm, what it is for and when it is due. -/
def Armed (s : Schedule) (k : AlarmId) (e : Expiry) (deadline : Nat) : Prop :=
  s.live.lookup k = some e ∧ ⟨deadline, k⟩ ∈ s.heap.toList

/-- The heap is in order, has no two entries of one alarm and an entry of each live one. -/
structure Sound (s : Schedule) : Prop where
  ordered : s.heap.Ordered Due.le
  nodup : (s.heap.toList.map (·.alarm)).Nodup
  entry : ∀ k e, s.live.lookup k = some e → ∃ deadline, ⟨deadline, k⟩ ∈ s.heap.toList

variable {s s' : Schedule} {j k : AlarmId} {e e' : Expiry} {deadline deadline' now : Nat}

theorem sound_empty : empty.Sound := ⟨trivial, .nil, nofun⟩

theorem Armed.expiry_eq (h : s.Armed k e deadline) (h' : s.Armed k e' deadline') : e = e' :=
  Option.some.inj (h.1.symm.trans h'.1)

theorem Sound.deadline_eq (hs : s.Sound) (h : s.Armed k e deadline)
    (h' : s.Armed k e' deadline') : deadline = deadline' := by
  have heq := List.inj_on_of_nodup_map hs.nodup h.2 h'.2 rfl
  exact congrArg Due.deadline heq

theorem Sound.armed_of_live (hs : s.Sound) (h : s.live.lookup k = some e) :
    ∃ deadline, s.Armed k e deadline := by
  obtain ⟨deadline, hd⟩ := hs.entry k e h
  exact ⟨deadline, h, hd⟩

/-! ## Setting and cancelling -/

theorem lookup_insert (s : Schedule) (j k : AlarmId) (deadline : Nat) (e : Expiry) :
    (s.insert j deadline e).live.lookup k = if k = j then some e else s.live.lookup k := by
  rw [insert, List.lookup_cons, lookup_filter_ne]
  by_cases h : k = j
  · simp [h]
  · rw [beq_false_of_ne h, if_neg h, if_neg h]

theorem mem_heap_insert (s : Schedule) (j : AlarmId) (deadline : Nat) (e : Expiry) (due : Due) :
    due ∈ (s.insert j deadline e).heap.toList ↔ due = ⟨deadline, j⟩ ∨ due ∈ s.heap.toList :=
  (Heap.toList_push _ _).mem_iff.trans List.mem_cons

theorem Sound.insert (hs : s.Sound) (hk : ∀ deadline, ⟨deadline, k⟩ ∉ s.heap.toList)
    (deadline : Nat) (e : Expiry) : (s.insert k deadline e).Sound where
  ordered := hs.ordered.push Due.le_trans Due.le_total _
  nodup := by
    refine ((Heap.toList_push _ _).map _).nodup_iff.2 (List.nodup_cons.2 ⟨fun hmem => ?_, hs.nodup⟩)
    obtain ⟨due, hd, ha⟩ := List.mem_map.1 hmem
    obtain rfl : due.alarm = k := ha
    exact hk due.deadline hd
  entry k' e' h := by
    simp only [mem_heap_insert]
    rw [lookup_insert] at h
    split at h
    · rename_i heq
      exact ⟨deadline, .inl (by rw [heq])⟩
    · obtain ⟨d, hd⟩ := hs.entry k' e' h
      exact ⟨d, .inr hd⟩

theorem armed_insert (hj : ∀ deadline, ⟨deadline, j⟩ ∉ s.heap.toList) :
    (s.insert j deadline e).Armed k e' deadline'
      ↔ (k = j ∧ e' = e ∧ deadline' = deadline) ∨ s.Armed k e' deadline' := by
  simp only [Armed, lookup_insert, mem_heap_insert, Due.mk.injEq]
  by_cases hk : k = j
  · subst hk
    simp [hj, eq_comm]
  · simp [hk]

theorem Sound.cancel (hs : s.Sound) (j : AlarmId) : (s.cancel j).Sound where
  ordered := hs.ordered
  nodup := hs.nodup
  entry k e h := by
    rw [Schedule.cancel, lookup_filter_ne] at h
    split at h
    · cases h
    · exact hs.entry k e h

theorem armed_cancel : (s.cancel j).Armed k e deadline ↔ s.Armed k e deadline ∧ k ≠ j := by
  simp only [Armed, cancel, lookup_filter_ne]
  by_cases hk : k = j <;> simp [hk]

/-! ## Purging and taking -/

/-- The schedule without the entry at the top of its heap. -/
def pop (s : Schedule) : Schedule := { s with heap := s.heap.pop Due.le }

theorem Sound.pop {top : Due} (hs : s.Sound) (ht : s.heap.peek? = some top)
    (hdead : s.live.lookup top.alarm = none) : s.pop.Sound where
  ordered := hs.ordered.pop Due.le_trans Due.le_total
  nodup := by
    have hn := ((Heap.toList_pop Due.le ht).map (·.alarm)).nodup hs.nodup
    exact (List.nodup_cons.1 hn).2
  entry k e h := by
    obtain ⟨deadline, hd⟩ := hs.entry k e h
    rcases List.mem_cons.1 ((Heap.toList_pop Due.le ht).mem_iff.1 hd) with rfl | hd
    · cases hdead.symm.trans h
    · exact ⟨deadline, hd⟩

theorem armed_pop {top : Due} (ht : s.heap.peek? = some top)
    (hdead : s.live.lookup top.alarm = none) : s.pop.Armed k e deadline ↔ s.Armed k e deadline := by
  refine and_congr_right fun hl => ?_
  rw [(Heap.toList_pop Due.le ht).mem_iff, List.mem_cons]
  refine (or_iff_right ?_).symm
  rintro rfl
  cases hdead.symm.trans hl

theorem Sound.purge (hs : s.Sound) : s.purge.Sound := by
  fun_induction Schedule.purge s with
  | case1 s top ht hl => exact hs
  | case2 s top ht hl ih => exact ih (hs.pop ht (Option.not_isSome_iff_eq_none.1 hl))
  | case3 s ht => exact hs

theorem armed_purge : s.purge.Armed k e deadline ↔ s.Armed k e deadline := by
  fun_induction Schedule.purge s with
  | case1 s top ht hl => exact .rfl
  | case2 s top ht hl ih => exact ih.trans (armed_pop ht (Option.not_isSome_iff_eq_none.1 hl))
  | case3 s ht => exact .rfl

theorem mem_heap_of_pop {s : Schedule} {due : Due} (h : due ∈ (s.heap.pop Due.le).toList) :
    due ∈ s.heap.toList := by
  rcases ht : s.heap.peek? with _ | top
  · rcases hh : s.heap with _ | ⟨x, l, r⟩
    · rw [hh] at h
      cases h
    · rw [hh] at ht
      cases ht
  · exact (Heap.toList_pop Due.le ht).mem_iff.2 (List.mem_cons_of_mem top h)

theorem mem_heap_of_purge {s : Schedule} {due : Due} (h : due ∈ s.purge.heap.toList) :
    due ∈ s.heap.toList := by
  fun_induction purge s with
  | case1 => exact h
  | case2 s top ht hl ih => exact mem_heap_of_pop (ih h)
  | case3 => exact h

theorem live_of_peek?_purge {top : Due} (ht : s.purge.heap.peek? = some top) :
    ∃ e, s.purge.live.lookup top.alarm = some e := by
  fun_induction Schedule.purge s with
  | case1 s top' ht' hl =>
    cases ht'.symm.trans ht
    exact Option.isSome_iff_exists.1 hl
  | case2 s top' ht' hl ih => exact ih ht
  | case3 s ht' => cases ht'.symm.trans ht

theorem mem_of_peek? {α : Type} {h : Heap α} {x : α} (hx : h.peek? = some x) : x ∈ h.toList := by
  cases h with
  | nil => cases hx
  | node y l r =>
    cases hx
    exact List.mem_cons_self

/-- The entry at the top comes before every armed alarm. -/
theorem Sound.top_le {top : Due} (hs : s.Sound) (ht : s.heap.peek? = some top)
    (ha : s.Armed k e deadline) : top.deadline ≤ deadline :=
  Due.deadline_le (hs.ordered.le_of_peek? Due.le_refl ht _ ha.2)

/-- Where an alarm is armed, the heap has a top. -/
theorem Armed.exists_top (ha : s.Armed k e deadline) : ∃ top, s.heap.peek? = some top := by
  have hmem := ha.2
  rcases h : s.heap with _ | ⟨top, l, r⟩
  · rw [h] at hmem
    cases hmem
  · exact ⟨top, rfl⟩

/-- Nothing is armed for a time before the next deadline. -/
theorem Sound.nextDeadline_le (hs : s.Sound) (ha : s.Armed k e deadline) :
    ∃ t ≤ deadline, s.nextDeadline.1 = some t := by
  have ha := armed_purge.2 ha
  obtain ⟨top, ht⟩ := ha.exists_top
  refine ⟨top.deadline, hs.purge.top_le ht ha, ?_⟩
  rw [nextDeadline, ht]
  rfl

/-- What taking the due alarms must come to: they are given earliest first, and of one time by
number, each with what it was set for; the others stay. -/
structure Takes (s : Schedule) (now : Nat) (r : List (AlarmId × Expiry) × Schedule) : Prop where
  sound : r.2.Sound
  heap : ∀ due ∈ r.2.heap.toList, due ∈ s.heap.toList
  armed : ∀ k e deadline, r.2.Armed k e deadline ↔ s.Armed k e deadline ∧ now < deadline
  given : ∃ due : List PlainAlarm, r.1 = due.map PlainAlarm.given
    ∧ due.Pairwise (fun a b => a.le b ∧ a.alarm ≠ b.alarm)
    ∧ ∀ a, a ∈ due ↔ s.Armed a.alarm a.expiry a.deadline ∧ a.deadline ≤ now

theorem Takes.of_armed {r : List (AlarmId × Expiry) × Schedule} (h : s'.Takes now r)
    (hheap : ∀ due ∈ s'.heap.toList, due ∈ s.heap.toList)
    (harmed : ∀ k e deadline, s'.Armed k e deadline ↔ s.Armed k e deadline) : s.Takes now r where
  sound := h.sound
  heap due hd := hheap due (h.heap due hd)
  armed k e deadline := (h.armed k e deadline).trans (and_congr_left' (harmed k e deadline))
  given := by
    obtain ⟨due, hgiven, hsorted, hmem⟩ := h.given
    exact ⟨due, hgiven, hsorted, fun a => (hmem a).trans (and_congr_left' (harmed _ _ _))⟩

/-- Nothing is given while nothing is due. -/
theorem Sound.takes_nil (hs : s.Sound)
    (hlate : ∀ k e deadline, s.Armed k e deadline → now < deadline) : s.Takes now ([], s) where
  sound := hs
  heap _ hd := hd
  armed k e deadline := ⟨fun ha => ⟨ha, hlate k e deadline ha⟩, And.left⟩
  given := by
    refine ⟨[], rfl, .nil, fun a => ⟨nofun, fun h => ?_⟩⟩
    have hlt := hlate _ _ _ h.1
    omega

theorem Sound.takes_of_lt {top : Due} (hs : s.Sound) (ht : s.heap.peek? = some top)
    (hlt : now < top.deadline) : s.Takes now ([], s) :=
  hs.takes_nil fun _ _ _ ha => Nat.lt_of_lt_of_le hlt (hs.top_le ht ha)

theorem Sound.takes_of_none (hs : s.Sound) (ht : s.heap.peek? = none) : s.Takes now ([], s) := by
  refine hs.takes_nil fun k e deadline ha => ?_
  obtain ⟨top, htop⟩ := ha.exists_top
  cases ht.symm.trans htop

/-- Dropping the entry at the top disarms its alarm, if it was live, and nothing else. -/
theorem Sound.drop {top : Due} (hs : s.Sound) (ht : s.heap.peek? = some top) :
    (s.cancel top.alarm).pop.Sound
      ∧ ∀ k e deadline, (s.cancel top.alarm).pop.Armed k e deadline
        ↔ s.Armed k e deadline ∧ k ≠ top.alarm := by
  have hdead : (s.cancel top.alarm).live.lookup top.alarm = none := by
    rw [Schedule.cancel, lookup_filter_ne, if_pos rfl]
  refine ⟨(hs.cancel top.alarm).pop ht hdead, fun k e deadline => ?_⟩
  rw [armed_pop (s := s.cancel top.alarm) ht hdead, armed_cancel]

/-- One entry of the loop: where the top is due, it is given if it is live and dropped anyway. -/
theorem Sound.takes_cons {top : Due} {r : List (AlarmId × Expiry) × Schedule} (hs : s.Sound)
    (ht : s.heap.peek? = some top) (hle : top.deadline ≤ now)
    (h : (s.cancel top.alarm).pop.Takes now r) :
    s.Takes now (((s.live.lookup top.alarm).map fun e => (top.alarm, e)).toList ++ r.1, r.2) := by
  obtain ⟨-, harmed⟩ := hs.drop ht
  have htop : ∀ e deadline, s.Armed top.alarm e deadline → deadline = top.deadline := by
    intro e deadline ha
    exact hs.deadline_eq ha ⟨ha.1, mem_of_peek? ht⟩
  refine ⟨h.sound, fun due hd => mem_heap_of_pop (s := s.cancel _) (h.heap due hd), ?_, ?_⟩
  · intro k e deadline
    rw [h.armed, harmed, and_right_comm, and_iff_left_iff_imp]
    rintro ⟨ha, hlt⟩ rfl
    have := htop e deadline ha
    omega
  obtain ⟨due, hgiven, hsorted, hmem⟩ := h.given
  cases hl : s.live.lookup top.alarm with
  | none =>
    refine ⟨due, hgiven, hsorted, fun a => (hmem a).trans ?_⟩
    rw [harmed, and_right_comm, and_iff_left_iff_imp]
    rintro ⟨ha, -⟩ heq
    cases hl.symm.trans (heq ▸ ha.1)
  | some e =>
    have hfirst : s.Armed top.alarm e top.deadline := ⟨hl, mem_of_peek? ht⟩
    refine ⟨⟨top, e⟩ :: due, congrArg (_ :: ·) hgiven, .cons (fun a ha => ?_) hsorted, ?_⟩
    · have ha := (harmed _ _ _).1 ((hmem a).1 ha).1
      exact ⟨hs.ordered.le_of_peek? Due.le_refl ht _ ha.1.2, Ne.symm ha.2⟩
    · intro a
      rw [List.mem_cons, hmem, harmed]
      constructor
      · rintro (rfl | h)
        · exact ⟨hfirst, hle⟩
        · exact ⟨h.1.1, h.2⟩
      · rintro ⟨ha, hnow⟩
        by_cases hk : a.alarm = top.alarm
        · left
          obtain ⟨⟨deadline, alarm⟩, expiry⟩ := a
          obtain rfl : alarm = top.alarm := hk
          obtain rfl : deadline = top.deadline := htop _ _ ha
          obtain rfl : expiry = e := ha.expiry_eq hfirst
          rfl
        · exact .inr ⟨⟨ha, hk⟩, hnow⟩

theorem Sound.takes_takeDue (hs : s.Sound) (now : Nat) : s.Takes now (s.takeDue now) := by
  fun_induction Schedule.takeDue s now with
  | case1 s p top ht hlt =>
    exact (hs.purge.takes_of_lt ht hlt).of_armed (fun _ => mem_heap_of_purge)
      fun _ _ _ => armed_purge
  | case2 s p top ht hle others rest hrec ih =>
    have h := hs.purge.takes_cons ht (Nat.not_lt.1 hle) (ih (hs.purge.drop ht).1)
    rw [hrec] at h
    exact h.of_armed (fun _ => mem_heap_of_purge) fun _ _ _ => armed_purge
  | case3 s p ht =>
    exact (hs.purge.takes_of_none ht).of_armed (fun _ => mem_heap_of_purge)
      fun _ _ _ => armed_purge

/-- Taking disarms the alarms that are due, keeps the others and gives the due ones. -/
theorem Sound.takeDue (hs : s.Sound) (now : Nat) :
    (s.takeDue now).2.Sound
      ∧ (∀ k e deadline, (s.takeDue now).2.Armed k e deadline
        ↔ s.Armed k e deadline ∧ now < deadline)
      ∧ ∀ k e, (k, e) ∈ (s.takeDue now).1 ↔ ∃ deadline ≤ now, s.Armed k e deadline := by
  have h := hs.takes_takeDue now
  obtain ⟨due, hgiven, -, hmem⟩ := h.given
  refine ⟨h.sound, h.armed, fun k e => ?_⟩
  rw [hgiven, List.mem_map]
  constructor
  · rintro ⟨a, ha, heq⟩
    cases heq
    exact ⟨a.deadline, ((hmem a).1 ha).2, ((hmem a).1 ha).1⟩
  · rintro ⟨deadline, hle, ha⟩
    exact ⟨⟨⟨deadline, k⟩, e⟩, (hmem _).2 ⟨ha, hle⟩, rfl⟩

end Schedule

end SpriteCanvas
