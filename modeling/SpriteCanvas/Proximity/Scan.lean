import SpriteCanvas.Canvas.Point
import SpriteCanvas.Cast.SpriteId

/-!
# Proximity

Two bodies touch when their distance is below a threshold.  `pairs` finds all touching pairs in
one scan, `partners` those that touch one body.
-/

namespace SpriteCanvas

/-- A sprite and where it is. -/
abbrev Body := SpriteId × Point

/-- Tells whether points touch. -/
structure Detector where
  threshold : Float

namespace Detector

/-- The threshold unless another is given. -/
def defaultThreshold : Float := 10

variable (d : Detector)

/-- Whether two points touch. -/
def touches (p q : Point) : Bool := p.distance q < d.threshold

/-- The bodies among `others` that touch `a`, each as a pair with `a` first. -/
def pairsWith (a : Body) (others : List Body) : List (SpriteId × SpriteId) :=
  (others.filter fun b => d.touches a.2 b.2).map fun b => (a.1, b.1)

/-- The touching pairs of bodies, in the order of the bodies. -/
def pairs : List Body → List (SpriteId × SpriteId)
  | [] => []
  | a :: rest => d.pairsWith a rest ++ pairs rest

/-- The bodies that touch the first body called `subject`, those of that name left out; none if
there is no such body. -/
def partners (subject : SpriteId) (bodies : List Body) : List SpriteId :=
  match bodies.find? (·.1 = subject) with
  | some s => (bodies.filter fun b => b.1 ≠ subject && d.touches s.2 b.2).map (·.1)
  | none => []

end Detector

end SpriteCanvas
