/-!
# Runs

At most one run is live.  A run begins if none is live; a stop ends its life at once, although its
performances may still have to notice, and its outcome is settled when the last of them has ended.
-/

namespace SpriteCanvas

/-- The number of a run. -/
abbrev RunId := Nat

/-- How a request to play came out. -/
inductive Outcome where
  /-- Another run was live, so nothing began. -/
  | alreadyRunning
  /-- Every script ran to its end. -/
  | completed
  /-- The run was stopped first. -/
  | stopped
  deriving DecidableEq, Repr

/-- The runs that have begun, are live, were stopped and have ended. -/
structure RunBook where
  begun : Nat
  live : Option RunId
  stopped : List RunId
  ended : List (RunId × Outcome)

namespace RunBook

/-- No run has begun. -/
def empty : RunBook := ⟨0, none, [], []⟩

variable (b : RunBook)

/-- Whether a run is live. -/
def isRunning : Bool := b.live.isSome

/-- Whether a run was stopped. -/
def isStopped (run : RunId) : Bool := b.stopped.contains run

/-- Begins a run unless one is live. -/
def begin? : Option (RunId × RunBook) :=
  match b.live with
  | some _ => none
  | none => some (b.begun, { b with begun := b.begun + 1, live := some b.begun })

/-- Stops the live run, if there is one. -/
def stop : RunBook :=
  match b.live with
  | some run => { b with live := none, stopped := run :: b.stopped }
  | none => b

theorem live_stop : b.stop.live = none := by
  unfold stop
  split
  · rfl
  · assumption

theorem begun_stop : b.stop.begun = b.begun := by
  unfold stop
  split <;> rfl

theorem ended_stop : b.stop.ended = b.ended := by
  unfold stop
  split <;> rfl

theorem mem_stopped_stop {run : RunId} :
    run ∈ b.stop.stopped ↔ run ∈ b.stopped ∨ b.live = some run := by
  unfold stop
  split
  · rename_i r hl
    simp [hl, or_comm, eq_comm]
  · rename_i hl
    simp [hl]

/-- The outcome of a run that ends now. -/
def outcomeOf (run : RunId) : Outcome := if b.isStopped run then .stopped else .completed

/-- Ends a run; a later one stays live. -/
def finish (run : RunId) : RunBook :=
  { b with
    live := if b.live = some run then none else b.live
    ended := (run, b.outcomeOf run) :: b.ended }

/-- The outcome of a run that has ended. -/
def outcome? (run : RunId) : Option Outcome := b.ended.lookup run

end RunBook

end SpriteCanvas
