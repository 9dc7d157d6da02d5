import SpriteCanvas.Playback.Show

/-!
# Sessions

A session is one engine from its start on, driven from outside by steps.  The clock moves only in
steps that let time pass, and the show settles after every step.
-/

namespace SpriteCanvas

/-- A request to play: it was refused, or it began a run. -/
inductive Play where
  | refused
  | run (run : RunId)
  deriving DecidableEq, Repr

/-- A step that takes no time. -/
inductive Action where
  | call (c : Call)
  /-- Asks to play, and does not wait. -/
  | spawnPlay
  /-- Asks whether a play has ended. -/
  | finished (play : Nat)

/-- A step of a session. -/
inductive Step where
  | action (a : Action)
  /-- Waits for a play to end. -/
  | join (play : Nat)
  /-- Asks to play and waits for the end. -/
  | play
  /-- Lets a number of nanoseconds pass. -/
  | advance (duration : Nat)
  /-- Takes actions without settling in between. -/
  | atomic (actions : List Action)

/-- The result of an action. -/
inductive ActionResult where
  | answer (a : Answer)
  /-- The number of the play. -/
  | play (n : Nat)
  /-- Nothing, if there is no such play. -/
  | finished (b : Option Bool)

/-- The result of a step. -/
inductive StepResult where
  | action (r : ActionResult)
  /-- Nothing, if there is no such play. -/
  | outcome (o : Option Outcome)
  | done
  | atomic (rs : List ActionResult)

/-- An engine, its clock and the plays so far. -/
structure Session where
  settings : Settings
  clock : Nat
  engine : Show
  plays : List Play

namespace Session

/-- A new engine at time zero. -/
def new (settings : Settings) (listening : Listening) (reactions : List Reaction) : Session where
  settings := settings
  clock := 0
  engine := ⟨⟨.initial, .new listening reactions⟩, []⟩
  plays := []

variable (s : Session)

/-- The outcome of a play that has ended. -/
def outcome? : Play → Option Outcome
  | .refused => some .alreadyRunning
  | .run run => s.engine.world.runs.outcome? run

/-- Asks to play. -/
def request : Play × Session :=
  match s.engine.play? with
  | none => (.refused, { s with plays := s.plays ++ [.refused] })
  | some (run, engine) => (.run run, { s with engine := engine, plays := s.plays ++ [.run run] })

/-- Takes an action. -/
def act : Action → ActionResult × Session
  | .call c =>
    let (answer, engine) := s.engine.call s.settings s.clock c
    (.answer answer, { s with engine := engine })
  | .spawnPlay => (.play s.plays.length, s.request.2)
  | .finished n => (.finished (s.plays[n]?.map fun p => (s.outcome? p).isSome), s)

/-- Takes actions one after the other. -/
def actAll : List Action → Session → List ActionResult × Session
  | [], s => ([], s)
  | a :: rest, s =>
    let (r, s) := s.act a
    let (rs, s) := actAll rest s
    (r :: rs, s)

/-- Settles. -/
def settle : Session := { s with engine := s.engine.settle s.settings s.clock }

/-- Waits for a play to end, and gives its outcome. -/
def await (p : Play) : Option Outcome × Session :=
  match p with
  | .refused => (s.outcome? p, s.settle)
  | .run run =>
    let (clock, engine) := s.engine.advanceToEnd s.settings s.clock run
    let s := { s with clock := clock, engine := engine }
    (s.outcome? p, s)

/-- Takes a step without settling at its end. -/
def take : Step → StepResult × Session
  | .action a =>
    let (r, s) := s.act a
    (.action r, s)
  | .join n =>
    match s.plays[n]? with
    | some p =>
      let (o, s) := s.await p
      (.outcome o, s)
    | none => (.outcome none, s)
  | .play =>
    let (p, s) := s.request
    let (o, s) := s.await p
    (.outcome o, s)
  | .advance duration =>
    let (clock, engine) := s.engine.advance s.settings s.clock duration
    (.done, { s with clock := clock, engine := engine })
  | .atomic actions =>
    let (rs, s) := actAll actions s
    (.atomic rs, s)

/-- Takes a step and settles. -/
def step (x : Step) : StepResult × Session :=
  let (r, s) := s.take x
  (r, s.settle)

/-- What the host has recorded since this was last asked, in order. -/
def takeEvents : List Event × Session :=
  let audience := s.engine.scene.audience
  (audience.recorded.reverse,
    { s with
      engine := { s.engine with
        scene := { s.engine.scene with audience := { audience with recorded := [] } } } })

/-- The snapshots of all sprites, in the order of their names. -/
def snapshots : List (SpriteId × Snapshot) :=
  s.engine.world.cast.members.map fun m => (m.id, m.figure.snapshot)

end Session

end SpriteCanvas
