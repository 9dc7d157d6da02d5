import SpriteCanvas.Canvas.Heading

/-!
# Points

A point of the canvas has two coordinates from 0 to 100.  `Point.clamped` is how every point is
made, so no other coordinate is ever held.
-/

namespace SpriteCanvas

/-- The least coordinate. -/
def canvasMin : Float := 0

/-- The greatest coordinate. -/
def canvasMax : Float := 100

/-- A number moved to the nearest coordinate; what is not a number goes to the least one. -/
def clampAxis (x : Float) : Float :=
  if x.isNaN then canvasMin
  else if x < canvasMin then canvasMin
  else if canvasMax < x then canvasMax
  else x

/-- A point of the canvas. -/
structure Point where
  x : Float
  y : Float
  deriving DecidableEq

namespace Point

/-- The point of the canvas nearest to `(x, y)` on each axis. -/
def clamped (x y : Float) : Point := ⟨clampAxis x, clampAxis y⟩

/-- The middle of the canvas. -/
def center : Point := ⟨50, 50⟩

/-- The corner with the least coordinates. -/
def origin : Point := ⟨canvasMin, canvasMin⟩

/-- The distance between two points. -/
def distance (p q : Point) : Float := Binary64.hypot (p.x - q.x) (p.y - q.y)

/-- The point `d` units away along a heading, clamped; a negative distance goes backwards. -/
def advanced (p : Point) (d : Float) (h : Heading) : Point :=
  clamped (p.x + d * h.radians.cos) (p.y + d * h.radians.sin)

end Point

end SpriteCanvas
