import SpriteCanvas.Cast.Figure
import SpriteCanvas.Json.Printer
import SpriteCanvas.Json.Record

/-!
# Snapshots as text

Points, headings, facings, names and snapshots are written as JSON and read back.  Reading clamps
positions and wraps headings, so that what is read is always a state that a sprite can be in.
-/

namespace SpriteCanvas

namespace Point

/-- The written form of a point. -/
def shape : Json.Shape Point where
  title := "struct RawPosition"
  fields := [
    ⟨"x", fun _ => Json.mapRead (fun x p => { p with x := x }) Json.readFloat, false, false⟩,
    ⟨"y", fun _ => Json.mapRead (fun y p => { p with y := y }) Json.readFloat, false, false⟩]
  initial := ⟨0, 0⟩

/-- Reads a point and clamps it. -/
def read (depth : Nat) : Json.Read Point :=
  Json.mapRead (fun p => clamped p.x p.y) (Json.readRecord shape depth)

/-- The written form of a point. -/
def toJson (p : Point) : Json := .object [("x", .ofFloat p.x), ("y", .ofFloat p.y)]

end Point

namespace Heading

/-- Reads an angle and wraps it. -/
def read (_depth : Nat) : Json.Read Heading := Json.mapRead ofDegrees Json.readFloat

/-- The written form of a heading. -/
def toJson (h : Heading) : Json := .ofFloat h.degrees

end Heading

namespace Facing

/-- The name under which a facing is written. -/
def name : Facing → String
  | forward => "Forward"
  | reverse => "Reverse"

/-- Reads a facing. -/
def read (depth : Nat) : Json.Read Facing :=
  Json.readVariant (forward.name, forward) (reverse.name, reverse) depth

/-- The written form of a facing. -/
def toJson (f : Facing) : Json := .text f.name

end Facing

namespace SpriteId

/-- Reads the name of a sprite. -/
def read (_depth : Nat) : Json.Read SpriteId := Json.readText

/-- The written form of the name of a sprite. -/
def toJson (id : SpriteId) : Json := .text id

end SpriteId

namespace Snapshot

/-- The written form of a snapshot; an object may leave out the message. -/
def shape : Json.Shape Snapshot where
  title := "struct SpriteSnapshot"
  fields := [
    ⟨"position", fun depth => Json.mapRead (fun p s => { s with position := p }) (Point.read depth),
      false, false⟩,
    ⟨"rotation", fun depth => Json.mapRead (fun h s => { s with heading := h }) (Heading.read depth),
      false, false⟩,
    ⟨"facing", fun depth => Json.mapRead (fun f s => { s with facing := f }) (Facing.read depth),
      false, false⟩,
    ⟨"message", fun _ => Json.mapRead (fun m s => { s with message := m }) Json.readOptionalText,
      false, true⟩,
    ⟨"highlighted", fun _ => Json.mapRead (fun b s => { s with highlighted := b }) Json.readFlag,
      false, false⟩,
    ⟨"in_timed_loop", fun _ => Json.mapRead (fun b s => { s with looping := b }) Json.readFlag,
      false, false⟩]
  initial := (Figure.new .center).snapshot

/-- Reads a snapshot. -/
def read (depth : Nat) : Json.Read Snapshot := Json.readRecord shape depth

/-- The written form of a snapshot. -/
def toJson (s : Snapshot) : Json :=
  .object [
    ("position", s.position.toJson),
    ("rotation", s.heading.toJson),
    ("facing", s.facing.toJson),
    ("message", match s.message with
      | some m => .text m
      | none => .null),
    ("highlighted", .bool s.highlighted),
    ("in_timed_loop", .bool s.looping)]

/-- The text of a snapshot. -/
def toText (s : Snapshot) : String := s.toJson.write

end Snapshot

end SpriteCanvas
