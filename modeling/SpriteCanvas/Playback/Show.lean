import SpriteCanvas.Playback.Performer

/-!
# Turns

A show is a scene with the performers that have not ended, in ascending order of their sprites'
names and then of their runs.  It goes on by turns, each of which is taken without interruption:
by the alarms that are due, or by a performer.  Settling takes turns until nobody can take one:
the alarms come first, and then the performers in their order.
-/

namespace SpriteCanvas

/-- A scene and its performers. -/
structure Show where
  scene : Scene
  performers : List Performer

namespace Show

variable (settings : Settings) (now : Nat)

/-- The world of a show. -/
def world (s : Show) : World := s.scene.world

/-- Makes a call from outside and gives its answer. -/
def call (c : Call) (s : Show) : Answer × Show :=
  let (answer, scene) := s.scene.call settings now c
  (answer, { s with scene := scene })

/-! ## Runs -/

/-- The performers with `p` added behind those of the same or earlier names. -/
def join (p : Performer) : List Performer → List Performer
  | [] => [p]
  | q :: rest => if p.id < q.id then p :: q :: rest else q :: join p rest

/-- Ends a run that has no performers left. -/
def finishIfDone (run : RunId) (s : Show) : Show :=
  if s.performers.any (·.run = run) then s
  else
    { s with scene := { s.scene with world := { s.world with runs := s.world.runs.finish run } } }

/-- Begins a run with a performer for every sprite, unless one is live.  A run without sprites
ends at once. -/
def play? (s : Show) : Option (RunId × Show) :=
  match s.world.runs.begin? with
  | none => none
  | some (run, runs) =>
    let entering := s.world.cast.members.map fun m =>
      ({ id := m.id, generation := m.generation, run := run, phase := .opening m.script } :
        Performer)
    some (run, finishIfDone run
      { scene := { s.scene with world := { s.world with runs := runs } }
        performers := entering.foldl (fun ps p => join p ps) s.performers })

/-! ## Turns -/

/-- The alarms that ring, one after the other. -/
def ringAll : List (AlarmId × Expiry) → Scene → Scene
  | [], s => s
  | (alarm, expiry) :: rest, s =>
    let (world, notices) := s.world.ring alarm expiry
    ringAll rest ({ s with world := world }.deliver settings now notices)

/-- The turn of the alarms: all that are due ring. -/
def alarmTurn (s : Show) : Show :=
  let (due, schedule) := s.world.alarms.schedule.takeDue now
  let world := { s.world with alarms := { s.world.alarms with schedule := schedule } }
  { s with scene := ringAll settings now due { s.scene with world := world } }

/-- The turn of a performer that stands between the performers `before`, the nearest first, and
`after`.  Its run ends with its last performer. -/
def performerTurn (before : List Performer) (p : Performer) (after : List Performer)
    (scene : Scene) : Show :=
  match p.turn settings now scene with
  | (scene, some p) => ⟨scene, before.reverse ++ p :: after⟩
  | (scene, none) => finishIfDone p.run ⟨scene, before.reverse ++ after⟩

/-- Whether an alarm is due. -/
def alarmIsDue (s : Show) : Bool := s.world.alarms.schedule.nextDeadline.1.any (· ≤ now)

/-- The turn of the first performer that can take one. -/
def firstPerformerTurn? (scene : Scene) : List Performer → List Performer → Option Show
  | _, [] => none
  | before, p :: after =>
    if p.isRunnable now scene.world then some (performerTurn settings now before p after scene)
    else firstPerformerTurn? scene (p :: before) after

/-- The next turn, if anybody can take one. -/
def turn? (s : Show) : Option Show :=
  if s.alarmIsDue now then some (s.alarmTurn settings now)
  else firstPerformerTurn? settings now s.scene [] s.performers

/-- More turns than a show can take at one time: each performer takes at most two, one to rest and
one to notice a stop, and the alarms one before each of these and at the end, and one more for
each reaction of the host. -/
def turnBound (s : Show) : Nat := 4 * s.performers.length + s.scene.audience.waiting.length + 1

/-- At most so many turns. -/
def settleWithin : Nat → Show → Show
  | 0, s => s
  | n + 1, s =>
    match s.turn? settings now with
    | some s => settleWithin n s
    | none => s

/-- Turns until nobody can take one. -/
def settle (s : Show) : Show := settleWithin settings now s.turnBound s

/-! ## Time -/

/-- The earlier of two times. -/
def earlier? : Option Nat → Option Nat → Option Nat
  | some a, some b => some (min a b)
  | some a, none => some a
  | none, b => b

/-- The next time at which an alarm is due or a performer wakes. -/
def nextWake? (s : Show) : Option Nat :=
  s.performers.foldl (fun t p => earlier? t p.wake?) s.world.alarms.schedule.nextDeadline.1

/-- Lets time pass from `now` in a settled show, up to `limit`, or until `done` holds after some
settling.  The show settles at every time at which something is due. -/
def passUntil (done : Show → Bool) (limit now : Nat) (s : Show) : Nat × Show :=
  if done s then (now, s)
  else
    match s.nextWake? with
    | some t =>
      if _h : now < t ∧ t ≤ limit then passUntil done limit t (s.settle settings t)
      else (limit, s)
    | none => (limit, s)
termination_by limit - now

/-- When the performers of a run that rest now have ended, if nobody stops them. -/
def horizon (run : RunId) (s : Show) : Nat :=
  s.performers.foldl (fun t p =>
    match p.phase with
    | .resting l wake => if p.run = run then max t (wake + l.left * settings.stepDelay) else t
    | _ => t) now

/-- Lets so much time pass. -/
def advance (duration : Nat) (s : Show) : Nat × Show :=
  passUntil settings (fun _ => false) (now + duration) now (s.settle settings now)

/-- Lets time pass until a run has ended. -/
def advanceToEnd (run : RunId) (s : Show) : Nat × Show :=
  let s := s.settle settings now
  passUntil settings (fun s => (s.world.runs.outcome? run).isSome) (s.horizon settings now run) now s

end Show

end SpriteCanvas
