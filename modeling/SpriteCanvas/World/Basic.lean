import SpriteCanvas.World.Notice
import SpriteCanvas.World.RunBook
import SpriteCanvas.Proximity.CheckQueue

/-!
# The world

The cast, the sprites that wait for a proximity check, the alarms and the runs, and what changes
them: a struck pair, a scan, a drain of the waiting checks, one block of a script, a stop and an
alarm that rings.  Each operation gives the new world and the notices for the host, in order.
-/

namespace SpriteCanvas

/-- What stays the same for the life of an engine; times are in nanoseconds.  Time is counted from
the start of the engine, when the clock of the platform reads `clockStart`. -/
structure Settings where
  threshold : Float
  stepDelay : Nat
  highlightTime : Nat
  clockStart : Nat := 0

namespace Settings

/-- The settings unless others are given. -/
def default : Settings where
  threshold := Detector.defaultThreshold
  stepDelay := 300 * Duration.millisecond
  highlightTime := 300 * Duration.millisecond

/-- The detector for the threshold. -/
def detector (settings : Settings) : Detector := ⟨settings.threshold⟩

end Settings

/-- The state that calls and performances share. -/
structure World where
  cast : Cast
  checks : CheckQueue
  alarms : Alarms
  runs : RunBook

namespace World

/-- Nobody is registered and nothing has happened. -/
def initial : World := ⟨.empty, .empty, .initial, .empty⟩

/-- The notice that a sprite has changed, if it is registered. -/
def notice (w : World) (id : SpriteId) (changes : List Change) : List Notice :=
  match w.cast.find? id with
  | some m => [.update ⟨id, m.target, changes, m.figure.snapshot⟩]
  | none => []

/-- Changes the figure of one sprite. -/
def updateFigure (w : World) (id : SpriteId) (f : Figure → Figure) : World :=
  { w with cast := w.cast.update id f }

variable (settings : Settings) (now : Nat)

/-! ## Proximity -/

/-- A sprite was hit: it turns around and lights up for the highlight time from now on. -/
def strike (id : SpriteId) (w : World) : World × List Notice :=
  match w.cast.find? id with
  | none => (w, [])
  | some m =>
    let (alarm, alarms) :=
      w.alarms.set settings.clockStart now settings.highlightTime (.highlight id)
    let w := { w with
      cast := w.cast.update id (·.strike alarm)
      alarms := alarms.cancel? m.figure.highlight }
    (w, w.notice id [.highlight, .facing])

/-- Strikes sprites one after the other. -/
def strikeAll : List SpriteId → World → World × List Notice
  | [], w => (w, [])
  | id :: ids, w =>
    let (w, first) := strike settings now id w
    let (w, rest) := strikeAll ids w
    (w, first ++ rest)

/-- Strikes both sprites of each pair. -/
def strikePairs (pairs : List (SpriteId × SpriteId)) (w : World) : World × List Notice :=
  strikeAll settings now (pairs.flatMap fun p => [p.1, p.2]) w

/-- The touching pairs of the cast. -/
def touchingPairs (w : World) : List (SpriteId × SpriteId) :=
  settings.detector.pairs w.cast.bodies

/-- Finds all touching pairs and strikes them; the number counts the pairs. -/
def scan (w : World) : World × List Notice × Nat :=
  let pairs := w.touchingPairs settings
  let (w, notices) := w.strikePairs settings now pairs
  (w, notices, pairs.length)

/-- The pairs of a waiting sprite and one that touches it, in the order in which they wait. -/
def waitingPairs (w : World) : List (SpriteId × SpriteId) :=
  w.checks.waiting.flatMap fun id =>
    (settings.detector.partners id w.cast.bodies).map fun other => (id, other)

/-- Checks every waiting sprite against all others and strikes the pairs; the number counts
them. -/
def drain (w : World) : World × List Notice × Nat :=
  let pairs := w.waitingPairs settings
  let (w, notices) := strikePairs settings now pairs { w with checks := .empty }
  (w, notices, pairs.length)

/-! ## Blocks -/

/-- The changes of a block, apart from those of a scan. -/
def changesOf : Command → List Change
  | .move _ | .goTo _ _ => [.position]
  | .turn _ => [.rotation]
  | .say _ _ | .think _ _ => [.message]
  | .loop _ | .unknown _ _ => []

/-- Shows a message in place of any other, for some seconds from now on. -/
def showMessage (m : Member) (text : String) (secs : Float) (w : World) : World :=
  let (alarm, alarms) :=
    w.alarms.set settings.clockStart now (Duration.ofSeconds secs) (.message m.id)
  { w with
    cast := w.cast.update m.id (·.say text alarm)
    alarms := alarms.cancel? (m.figure.bubble.map (·.alarm)) }

/-- What a command does to the world before any scan. -/
def apply (m : Member) (w : World) : Command → World
  | .move steps =>
    let w := w.updateFigure m.id (·.walk steps)
    if m.figure.looping then { w with checks := (w.checks.push m.id).2 } else w
  | .turn degrees => w.updateFigure m.id (·.turn degrees)
  | .goTo x y => w.updateFigure m.id (·.goTo x y)
  | .say text secs | .think text secs => w.showMessage settings now m text secs
  | .loop _ | .unknown _ _ => w

/-- Whether a command of a sprite makes a scan: a move does outside a loop.  In a loop the sprite
waits for a check instead. -/
def scansAfter (m : Member) : Command → Bool
  | .move _ => !m.figure.looping
  | _ => false

/-- Runs one command for a registered sprite. -/
def execute (m : Member) (command : Command) (w : World) : World × List Notice :=
  let w := w.apply settings now m command
  let own := w.notice m.id (changesOf command)
  if scansAfter m command then
    let (w, notices, _) := w.scan settings now
    (w, own ++ notices)
  else (w, own)

/-- Marks a sprite of a generation as inside or outside a loop. -/
def setLooping (id : SpriteId) (generation : Nat) (looping : Bool) (w : World) : World :=
  { w with cast := w.cast.updateCurrent id generation fun f => { f with looping := looping } }

/-! ## Stop and alarms -/

/-- The members that show a message. -/
def speakers (w : World) : List Member := w.cast.members.filter (·.figure.bubble.isSome)

/-- Ends every message. -/
def hushAll (w : World) : World × List Notice :=
  let hushed := { w with
    cast := w.cast.mapFigures (·.figure.hush)
    alarms := w.speakers.foldl (fun a m => a.cancel? (m.figure.bubble.map (·.alarm))) w.alarms }
  (hushed, w.speakers.flatMap fun m => hushed.notice m.id [.message])

/-- Stops the live run and ends every message. -/
def stop (w : World) : World × List Notice :=
  { w with runs := w.runs.stop }.hushAll

/-- An alarm rings.  It ends a message or a highlight only if it was set for that one. -/
def ring (w : World) (alarm : AlarmId) (expiry : Expiry) : World × List Notice :=
  match w.cast.find? expiry.sprite with
  | none => (w, [])
  | some m =>
    match expiry with
    | .message id =>
      if m.figure.bubble.map (·.alarm) = some alarm then
        let w := w.updateFigure id (·.hush)
        (w, w.notice id [.message])
      else (w, [])
    | .highlight id =>
      if m.figure.highlight = some alarm then
        let w := w.updateFigure id (·.dim)
        (w, w.notice id [.highlight])
      else (w, [])

end World

end SpriteCanvas
