import SpriteCanvas.Alarm.Duration
import SpriteCanvas.Alarm.Heap
import SpriteCanvas.Cast.SpriteId

/-!
# Alarms

An alarm ends something that is shown for a time: a message or a highlight.  The schedule keeps
the deadlines in a heap and, apart from it, what each live alarm is for.  Cancelling an alarm
forgets only what it is for; its deadline stays in the heap until it comes to the top.
-/

namespace SpriteCanvas

/-- The number of an alarm; none is given out twice. -/
abbrev AlarmId := Nat

/-- What an alarm ends. -/
inductive Expiry where
  | message (sprite : SpriteId)
  | highlight (sprite : SpriteId)
  deriving DecidableEq, Repr

/-- The sprite whose message or highlight an alarm ends. -/
def Expiry.sprite : Expiry → SpriteId
  | message id | highlight id => id

/-- An entry of the heap: when an alarm is due. -/
structure Due where
  deadline : Nat
  alarm : AlarmId
  deriving DecidableEq, Repr

/-- Earlier deadlines come first, and of equal ones the alarm that was set first. -/
def Due.le (a b : Due) : Bool :=
  a.deadline < b.deadline || (a.deadline = b.deadline && a.alarm ≤ b.alarm)

/-- The alarms that are set. -/
structure Schedule where
  heap : Heap Due
  live : List (AlarmId × Expiry)

namespace Schedule

/-- No alarm is set. -/
def empty : Schedule := ⟨.nil, []⟩

/-- Sets an alarm. -/
def insert (s : Schedule) (alarm : AlarmId) (deadline : Nat) (expiry : Expiry) : Schedule :=
  ⟨s.heap.push Due.le ⟨deadline, alarm⟩, (alarm, expiry) :: s.live.filter (·.1 ≠ alarm)⟩

/-- Forgets an alarm; one that is not set is no matter. -/
def cancel (s : Schedule) (alarm : AlarmId) : Schedule :=
  { s with live := s.live.filter (·.1 ≠ alarm) }

/-- Drops the entries of alarms that are no longer live from the top of the heap. -/
def purge (s : Schedule) : Schedule :=
  match _h : s.heap.peek? with
  | some due =>
    if (s.live.lookup due.alarm).isSome then s
    else purge { s with heap := s.heap.pop Due.le }
  | none => s
termination_by s.heap.size
decreasing_by have := Heap.size_pop Due.le _h; omega

theorem size_purge_le (s : Schedule) : s.purge.heap.size ≤ s.heap.size := by
  fun_induction purge s with
  | case1 => exact Nat.le_refl _
  | case2 s due h _ ih =>
    have := Heap.size_pop Due.le h
    simp only at ih
    omega
  | case3 => exact Nat.le_refl _

/-- The earliest deadline of a live alarm, and the schedule without the entries above it. -/
def nextDeadline (s : Schedule) : Option Nat × Schedule :=
  let s := s.purge
  (s.heap.peek?.map (·.deadline), s)

/-- Takes out the live alarms with a deadline up to `now`, in the order of their deadlines. -/
def takeDue (s : Schedule) (now : Nat) : List (AlarmId × Expiry) × Schedule :=
  let p := s.purge
  match _h : p.heap.peek? with
  | some due =>
    if now < due.deadline then ([], p)
    else
      let (others, rest) := takeDue { p.cancel due.alarm with heap := p.heap.pop Due.le } now
      (((p.live.lookup due.alarm).map fun expiry => (due.alarm, expiry)).toList ++ others, rest)
  | none => ([], p)
termination_by s.heap.size
decreasing_by
  have := Heap.size_pop Due.le _h
  have := s.size_purge_le
  grind

end Schedule

/-- The schedule and the numbers of the alarms still to be set. -/
structure Alarms where
  schedule : Schedule
  next : AlarmId

namespace Alarms

/-- No alarm was ever set. -/
def initial : Alarms := ⟨.empty, 1⟩

/-- Sets an alarm that is due after a duration. -/
def set (a : Alarms) (clockStart now duration : Nat) (expiry : Expiry) : AlarmId × Alarms :=
  let deadline := Duration.deadline clockStart now duration
  (a.next, ⟨a.schedule.insert a.next deadline expiry, a.next + 1⟩)

/-- Cancels an alarm.  Entries at the top of the heap go with it if nobody needs them. -/
def cancel (a : Alarms) (alarm : AlarmId) : Alarms :=
  { a with schedule := (a.schedule.cancel alarm).purge }

/-- Cancels an alarm if there is one. -/
def cancel? (a : Alarms) : Option AlarmId → Alarms
  | some alarm => a.cancel alarm
  | none => a

end Alarms

end SpriteCanvas
