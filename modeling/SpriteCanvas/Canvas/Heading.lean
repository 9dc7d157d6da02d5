import SpriteCanvas.Binary64

/-!
# Headings

A heading is an angle in degrees, at least 0 and below 360, so every angle is wrapped.  `facing`
says whether a sprite walks along its heading or against it.
-/

namespace SpriteCanvas

/-- A direction in degrees, clockwise from the positive x axis. -/
structure Heading where
  degrees : Float
  deriving DecidableEq

namespace Heading

/-- Along the positive x axis. -/
def zero : Heading := ⟨0⟩

/-- An angle wrapped into one turn, before the ends are settled: its remainder by 360, moved up by
a turn if that is negative. -/
def wrap (x : Float) : Float :=
  let r := Binary64.remainder x 360
  if r < 0 then r + 360 else r

/-- The heading of any angle; one that is not finite gives zero.  A tiny negative angle can round
up to a full turn, which is zero too. -/
def ofDegrees (x : Float) : Heading :=
  if x.isFinite then
    let w := wrap x
    if 360 ≤ w then zero else ⟨w⟩
  else zero

/-- The heading turned by an angle, clockwise if positive; one that is not finite turns it not at
all. -/
def turned (h : Heading) (delta : Float) : Heading :=
  if delta.isFinite then ofDegrees (h.degrees + delta) else h

/-- One degree in radians. -/
def radiansPerDegree : Float := Float.ofBits 0x3f91df46a2529d39

/-- The angle in radians. -/
def radians (h : Heading) : Float := h.degrees * radiansPerDegree

end Heading

/-- Which way a sprite walks. -/
inductive Facing where
  /-- Along its heading. -/
  | forward
  /-- Against its heading. -/
  | reverse
  deriving DecidableEq, Repr

namespace Facing

/-- The factor of a distance that is walked. -/
def sign : Facing → Float
  | forward => 1
  | reverse => -1

/-- The other way. -/
def flip : Facing → Facing
  | forward => reverse
  | reverse => forward

@[simp] theorem flip_flip (f : Facing) : f.flip.flip = f := by cases f <;> rfl

end Facing

end SpriteCanvas
