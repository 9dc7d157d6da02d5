import Mathlib.Data.List.Permutation
import SpriteCanvas.Proofs.Armed

/-!
# The schedule as a plain set of alarms

A schedule has a heap with entries of alarms long forgotten and, apart from it, the live alarms.
Whoever asks it sees none of this: its replies to any calls are those of a plain set of alarms, as
long as no number is set twice (`replies_plain`).  The entries of forgotten alarms may go as soon
as they come to the top of the heap (`Schedule.takeDue`) or not before they are due
(`Schedule.takeDueLazily`); either way it gives the due alarms in order (`Schedule.Takes`).
-/

namespace SpriteCanvas

/-- What a schedule can be asked. -/
inductive ScheduleCall where
  | insert (alarm : AlarmId) (deadline : Nat) (expiry : Expiry)
  | cancel (alarm : AlarmId)
  | nextDeadline
  | takeDue (now : Nat)
  deriving DecidableEq, Repr

/-- The number a call sets, if any. -/
def ScheduleCall.sets? : ScheduleCall → Option AlarmId
  | insert alarm _ _ => some alarm
  | _ => none

/-- What a schedule replies to a call. -/
inductive ScheduleReply where
  | done
  | next (deadline : Option Nat)
  | due (alarms : List (AlarmId × Expiry))
  deriving DecidableEq, Repr

/-! ## The plain set -/

namespace PlainAlarm

theorem le_trans {a b c : PlainAlarm} : a.le b → b.le c → a.le c := Due.le_trans _ _ _

theorem le_total (a b : PlainAlarm) : a.le b ∨ b.le a := Due.le_total _ _

theorem alarm_eq {a b : PlainAlarm} (hab : a.le b) (hba : b.le a) : a.alarm = b.alarm := by
  have hab := Due.le_iff.1 hab
  have hba := Due.le_iff.1 hba
  have hle : @LE.le Nat _ a.alarm b.alarm := by omega
  have hge : @LE.le Nat _ b.alarm a.alarm := by omega
  exact Nat.le_antisymm hle hge

theorem pairwise_mergeSort (set : List PlainAlarm) :
    (set.mergeSort le).Pairwise fun a b => a.le b := by
  apply List.pairwise_mergeSort
  · exact fun _ _ _ => le_trans
  · exact fun a b => (Bool.or_eq_true _ _).mpr (le_total a b)

/-- What a plain set of alarms replies to a call, and what it is then. -/
def serve (set : List PlainAlarm) : ScheduleCall → ScheduleReply × List PlainAlarm
  | .insert alarm deadline expiry => (.done, ⟨⟨deadline, alarm⟩, expiry⟩ :: set)
  | .cancel alarm => (.done, set.filter (·.alarm ≠ alarm))
  | .nextDeadline => (.next (set.map (·.deadline)).min?, set)
  | .takeDue now =>
    (.due (((set.filter (·.deadline ≤ now)).mergeSort le).map given),
      set.filter (now < ·.deadline))

/-- What a plain set replies to calls one after another. -/
def replies (set : List PlainAlarm) : List ScheduleCall → List ScheduleReply
  | [] => []
  | call :: calls => (serve set call).1 :: replies (serve set call).2 calls

end PlainAlarm

/-! ## The schedule -/

namespace Schedule

/-- Takes out the live alarms with a deadline up to `now`.  Entries of forgotten alarms go with
them, but none that is not due. -/
def takeDueLazily (s : Schedule) (now : Nat) : List (AlarmId × Expiry) × Schedule :=
  match _h : s.heap.peek? with
  | some due =>
    if now < due.deadline then ([], s)
    else
      let (others, rest) := takeDueLazily (s.cancel due.alarm).pop now
      (((s.live.lookup due.alarm).map fun expiry => (due.alarm, expiry)).toList ++ others, rest)
  | none => ([], s)
termination_by s.heap.size
decreasing_by
  have := Heap.size_pop Due.le _h
  simp only [pop, cancel]
  omega

section Serving

variable (take : Schedule → Nat → List (AlarmId × Expiry) × Schedule)

/-- What a schedule replies to a call, and what it is then. -/
def serve (s : Schedule) : ScheduleCall → ScheduleReply × Schedule
  | .insert alarm deadline expiry => (.done, s.insert alarm deadline expiry)
  | .cancel alarm => (.done, s.cancel alarm)
  | .nextDeadline => (.next s.nextDeadline.1, s.nextDeadline.2)
  | .takeDue now => (.due (take s now).1, (take s now).2)

/-- What a schedule replies to calls one after another. -/
def replies (s : Schedule) : List ScheduleCall → List ScheduleReply
  | [] => []
  | call :: calls => (s.serve take call).1 :: replies (s.serve take call).2 calls

end Serving

variable {s s' : Schedule} {now : Nat}

/-! ## Taking lazily -/

theorem Sound.takes_takeDueLazily (hs : s.Sound) (now : Nat) :
    s.Takes now (s.takeDueLazily now) := by
  fun_induction Schedule.takeDueLazily s now with
  | case1 s top ht hlt => exact hs.takes_of_lt ht hlt
  | case2 s top ht hle others rest hrec ih =>
    have h := hs.takes_cons ht (Nat.not_lt.1 hle) (ih (hs.drop ht).1)
    rw [hrec] at h
    exact h
  | case3 s ht => exact hs.takes_of_none ht

/-! ## Holding a plain set -/

/-- The armed alarms of a schedule are those of the plain set. -/
structure Holds (s : Schedule) (set : List PlainAlarm) : Prop where
  sound : s.Sound
  nodup : (set.map (·.alarm)).Nodup
  mem : ∀ a, a ∈ set ↔ s.Armed a.alarm a.expiry a.deadline

variable {set : List PlainAlarm}

theorem holds_empty : empty.Holds [] := ⟨sound_empty, .nil, fun _ => ⟨nofun, fun h => nomatch h.1⟩⟩

theorem Holds.eq_of_alarm (h : s.Holds set) {a b : PlainAlarm} (ha : a ∈ set) (hb : b ∈ set)
    (hab : a.alarm = b.alarm) : a = b :=
  List.inj_on_of_nodup_map h.nodup ha hb hab

theorem Holds.filter (h : s.Holds set) {p : PlainAlarm → Bool} (hs : s'.Sound)
    (harmed : ∀ a : PlainAlarm, s'.Armed a.alarm a.expiry a.deadline
      ↔ s.Armed a.alarm a.expiry a.deadline ∧ p a) : s'.Holds (set.filter p) where
  sound := hs
  nodup := (List.filter_sublist.map _).nodup h.nodup
  mem a := by rw [List.mem_filter, h.mem, harmed]

theorem Holds.insert (h : s.Holds set) {alarm : AlarmId}
    (hfresh : ∀ due ∈ s.heap.toList, due.alarm ≠ alarm) (deadline : Nat) (e : Expiry) :
    (s.insert alarm deadline e).Holds (⟨⟨deadline, alarm⟩, e⟩ :: set) := by
  have hnot : ∀ deadline, ⟨deadline, alarm⟩ ∉ s.heap.toList := fun d hd => hfresh _ hd rfl
  refine ⟨h.sound.insert hnot deadline e, ?_, fun a => ?_⟩
  · refine List.nodup_cons.2 ⟨fun hmem => ?_, h.nodup⟩
    obtain ⟨a, ha, heq⟩ := List.mem_map.1 hmem
    exact hfresh _ ((h.mem a).1 ha).2 heq
  · rw [List.mem_cons, armed_insert hnot, h.mem]
    refine or_congr_left ?_
    obtain ⟨⟨d, k⟩, e'⟩ := a
    simp only [PlainAlarm.mk.injEq, Due.mk.injEq]
    tauto

/-- The next deadline is the least of the set. -/
theorem Holds.nextDeadline (h : s.Holds set) :
    s.nextDeadline.1 = (set.map (·.deadline)).min? := by
  cases ht : s.purge.heap.peek? with
  | none =>
    have hnil : set = [] := by
      refine List.eq_nil_iff_forall_not_mem.2 fun a ha => ?_
      obtain ⟨top, htop⟩ := (armed_purge.2 ((h.mem a).1 ha)).exists_top
      cases ht.symm.trans htop
    rw [hnil, Schedule.nextDeadline, ht]
    rfl
  | some top =>
    obtain ⟨e, hl⟩ := live_of_peek?_purge ht
    have hmem : (⟨top, e⟩ : PlainAlarm) ∈ set :=
      (h.mem _).2 (armed_purge.1 ⟨hl, mem_of_peek? ht⟩)
    rw [Schedule.nextDeadline, ht]
    have hleast : (set.map (·.deadline)).min? = some top.deadline := by
      refine List.min?_eq_some_iff.2 ⟨List.mem_map_of_mem hmem, fun deadline hd => ?_⟩
      obtain ⟨a, ha, rfl⟩ := List.mem_map.1 hd
      exact h.sound.purge.top_le ht (armed_purge.2 ((h.mem a).1 ha))
    rw [hleast]
    rfl

/-- Taking gives the due alarms of the set, sorted. -/
theorem Holds.takes (h : s.Holds set) {r : List (AlarmId × Expiry) × Schedule}
    (hr : s.Takes now r) :
    r.1 = ((set.filter (·.deadline ≤ now)).mergeSort PlainAlarm.le).map PlainAlarm.given
      ∧ r.2.Holds (set.filter (now < ·.deadline)) := by
  refine ⟨?_, h.filter hr.sound fun a => by rw [hr.armed, decide_eq_true_iff]⟩
  obtain ⟨due, hgiven, hsorted, hmem⟩ := hr.given
  rw [hgiven]
  have hordered : due.Pairwise fun a b => a.le b := hsorted.imp And.left
  have hdistinct : due.Nodup := hsorted.imp fun hab heq => hab.2 (congrArg (·.alarm) heq)
  have hperm : due.Perm ((set.filter (·.deadline ≤ now)).mergeSort PlainAlarm.le) := by
    refine ((List.perm_ext_iff_of_nodup hdistinct ?_).2 fun a => ?_).trans
      (List.mergeSort_perm _ _).symm
    · exact (List.Nodup.of_map _ h.nodup).filter _
    · rw [hmem, List.mem_filter, h.mem, decide_eq_true_iff]
  refine congrArg _ (hperm.eq_of_pairwise (fun a b ha hb hab hba => ?_) hordered
    (PlainAlarm.pairwise_mergeSort _))
  have hset := (List.mem_filter.1 (List.mem_mergeSort.1 hb)).1
  exact h.eq_of_alarm ((h.mem a).2 ((hmem a).1 ha).1) hset (PlainAlarm.alarm_eq hab hba)

/-! ## The replies -/

section Replies

variable {take : Schedule → Nat → List (AlarmId × Expiry) × Schedule}
  (htake : ∀ (s : Schedule) (now : Nat), s.Sound → s.Takes now (take s now))

include htake

/-- One call: the replies agree, the schedule goes on holding the set, and only a number set by the
call is new in the heap. -/
theorem Holds.serve (h : s.Holds set) (call : ScheduleCall)
    (hfresh : ∀ due ∈ s.heap.toList, call.sets? ≠ some due.alarm) :
    (s.serve take call).1 = (PlainAlarm.serve set call).1
      ∧ (s.serve take call).2.Holds (PlainAlarm.serve set call).2
      ∧ ∀ due ∈ (s.serve take call).2.heap.toList,
          due ∈ s.heap.toList ∨ call.sets? = some due.alarm := by
  cases call with
  | insert alarm deadline expiry =>
    refine ⟨rfl, h.insert (fun due hd heq => hfresh due hd (congrArg some heq.symm)) _ _, ?_⟩
    intro due hd
    rcases (mem_heap_insert _ _ _ _ _).1 hd with rfl | hd
    · exact .inr rfl
    · exact .inl hd
  | cancel alarm =>
    refine ⟨rfl, h.filter (h.sound.cancel alarm) fun a => armed_cancel.trans ?_,
      fun due hd => .inl hd⟩
    rw [decide_eq_true_iff]
  | nextDeadline =>
    refine ⟨congrArg _ h.nextDeadline, ⟨h.sound.purge, h.nodup, fun a => ?_⟩,
      fun due hd => .inl (mem_heap_of_purge hd)⟩
    exact (h.mem a).trans armed_purge.symm
  | takeDue now =>
    have hr := htake s now h.sound
    exact ⟨congrArg _ (h.takes hr).1, (h.takes hr).2, fun due hd => .inl (hr.heap due hd)⟩

/-- All calls, as long as each sets a number that is new. -/
theorem Holds.replies (calls : List ScheduleCall) :
    ∀ {s : Schedule} {set : List PlainAlarm}, s.Holds set →
      (calls.filterMap ScheduleCall.sets?).Nodup →
      (∀ due ∈ s.heap.toList, due.alarm ∉ calls.filterMap ScheduleCall.sets?) →
      s.replies take calls = PlainAlarm.replies set calls := by
  induction calls with
  | nil => exact fun _ _ _ => rfl
  | cons call calls ih =>
    intro s set h hnodup hfresh
    have hone : ∀ due ∈ s.heap.toList, call.sets? ≠ some due.alarm := fun due hd heq =>
      hfresh due hd (List.mem_filterMap.2 ⟨call, List.mem_cons_self, heq⟩)
    obtain ⟨hreply, hholds, hheap⟩ := h.serve htake call hone
    refine congrArg₂ List.cons hreply (ih hholds ?_ fun due hd hmem => ?_)
    · exact (List.Sublist.filterMap _ (List.sublist_cons_self call calls)).nodup hnodup
    · rcases hheap due hd with hd | heq
      · exact hfresh due hd
          ((List.Sublist.filterMap _ (List.sublist_cons_self call calls)).subset hmem)
      · rw [List.filterMap_cons_some heq, List.nodup_cons] at hnodup
        exact hnodup.1 hmem

end Replies

/-- A schedule that starts empty replies to every list of calls as a plain set of alarms does, if
no number is set twice: whatever is cancelled, in whatever order the times come, and whether
entries of forgotten alarms go early or late. -/
theorem replies_plain (calls : List ScheduleCall)
    (hnew : (calls.filterMap ScheduleCall.sets?).Nodup) :
    empty.replies takeDue calls = PlainAlarm.replies [] calls
      ∧ empty.replies takeDueLazily calls = PlainAlarm.replies [] calls :=
  ⟨holds_empty.replies (fun _ now hs => hs.takes_takeDue now) calls hnew nofun,
    holds_empty.replies (fun _ now hs => hs.takes_takeDueLazily now) calls hnew nofun⟩

/-- Two alarms of one time, with a forgotten one above them and another below, and a clock that
goes back. -/
def forgottenAboveAndBelow : List ScheduleCall :=
  [.insert 3 20 (.message "cat"), .insert 2 20 (.highlight "dog"), .insert 1 10 (.message "cow"),
    .insert 4 30 (.message "hen"), .cancel 1, .cancel 9, .cancel 4, .nextDeadline, .takeDue 19,
    .takeDue 25, .insert 5 7 (.message "owl"), .cancel 2, .nextDeadline, .takeDue 7, .nextDeadline]

theorem replies_forgottenAboveAndBelow :
    (forgottenAboveAndBelow.filterMap ScheduleCall.sets?).Nodup
      ∧ empty.replies takeDue forgottenAboveAndBelow
        = [.done, .done, .done, .done, .done, .done, .done, .next (some 20), .due [],
          .due [(2, .highlight "dog"), (3, .message "cat")], .done, .done, .next (some 7),
          .due [(5, .message "owl")], .next none] := by
  have hnew : (forgottenAboveAndBelow.filterMap ScheduleCall.sets?).Nodup := by decide
  exact ⟨hnew, (replies_plain forgottenAboveAndBelow hnew).1.trans (by cbv)⟩

end Schedule

end SpriteCanvas
