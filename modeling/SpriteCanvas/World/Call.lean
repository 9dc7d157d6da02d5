import SpriteCanvas.Cast.Record
import SpriteCanvas.World.Basic

/-!
# Calls

What a host can ask of an engine in one call, and how a call is answered: by a new world, notices
and an answer.
-/

namespace SpriteCanvas

/-- A single request. -/
inductive Call where
  | register (id : SpriteId) (position : Point) (script : Script) (target : String)
  | unregister (id : SpriteId)
  | setPosition (id : SpriteId) (position : Point)
  | setScript (id : SpriteId) (script : Script)
  | refresh (id : SpriteId)
  | queueCheck (id : SpriteId)
  | snapshot (id : SpriteId)
  | snapshotText (id : SpriteId)
  | ids
  | check (a b : SpriteId)
  | checkAll
  | drainChecks
  | stop
  | isRunning
  /-- A request with a script whose text has a fault; it changes nothing. -/
  | unreadable (fault : Fault)

/-- The answer to a call. -/
inductive Answer where
  | registration (r : Registration)
  | flag (b : Bool)
  | snapshot (s : Option Snapshot)
  | text (s : Option String)
  | ids (ids : List SpriteId)
  | touching (b : Option Bool)
  | count (n : Nat)
  | done
  | fault (f : Fault)

/-- A new world, what the host is told and the answer to the caller. -/
structure Reply where
  world : World
  notices : List Notice
  answer : Answer

namespace World

variable (settings : Settings) (now : Nat)

/-- Whether two registered sprites touch. -/
def touching? (w : World) (a b : SpriteId) : Option Bool := do
  let m ← w.cast.find? a
  let n ← w.cast.find? b
  return settings.detector.touches m.figure.position n.figure.position

/-- Takes out a sprite, its waiting check and its alarms, and tells the host. -/
def unregister (w : World) (id : SpriteId) : World × List Notice × Bool :=
  let left := { w with cast := w.cast.remove id, checks := w.checks.remove id }
  match w.cast.find? id with
  | none => (left, [], false)
  | some m =>
    ({ left with alarms := m.figure.alarms.foldl Alarms.cancel w.alarms },
      [.removed id m.target], true)

/-- Answers a call. -/
def reply (w : World) : Call → Reply
  | .register id position script target =>
    let (r, cast) := w.cast.register id target position script
    let w := { w with cast := cast }
    ⟨w, w.notice id [.registered, .position], .registration r⟩
  | .unregister id =>
    let (w, notices, known) := w.unregister id
    ⟨w, notices, .flag known⟩
  | .setPosition id position =>
    let moved := w.updateFigure id fun f => { f with position := position }
    ⟨moved, moved.notice id [.position], .flag (w.cast.find? id).isSome⟩
  | .setScript id script =>
    let (known, cast) := w.cast.setScript id script
    ⟨{ w with cast := cast }, [], .flag known⟩
  | .refresh id => ⟨w, w.notice id [], .flag (w.cast.find? id).isSome⟩
  | .queueCheck id =>
    if (w.cast.find? id).isSome then
      let (added, checks) := w.checks.push id
      ⟨{ w with checks := checks }, [], .flag added⟩
    else ⟨w, [], .flag false⟩
  | .snapshot id => ⟨w, [], .snapshot ((w.cast.find? id).map (·.figure.snapshot))⟩
  | .snapshotText id => ⟨w, [], .text ((w.cast.find? id).map (·.figure.snapshot.toText))⟩
  | .ids => ⟨w, [], .ids w.cast.ids⟩
  | .check a b => ⟨w, [], .touching (w.touching? settings a b)⟩
  | .checkAll =>
    let (w, notices, n) := w.scan settings now
    ⟨w, notices, .count n⟩
  | .drainChecks =>
    let (w, notices, n) := w.drain settings now
    ⟨w, notices, .count n⟩
  | .stop =>
    let (w, notices) := w.stop
    ⟨w, notices, .done⟩
  | .isRunning => ⟨w, [], .flag w.runs.isRunning⟩
  | .unreadable fault => ⟨w, [], .fault fault⟩

end World

end SpriteCanvas
