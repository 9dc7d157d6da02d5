import SpriteCanvas.Alarm.Schedule
import SpriteCanvas.Canvas.Point

/-!
# Figures

A figure is what a sprite is at one moment: where it is, which way it points and walks, what it
says and whether it is highlighted.  A message is there exactly while the alarm that ends it is
set, so the two are one; a highlight is its alarm.
-/

namespace SpriteCanvas

/-- A message on show, and the alarm that ends it. -/
structure Bubble where
  text : String
  alarm : AlarmId
  deriving DecidableEq

/-- The state of a sprite. -/
structure Figure where
  position : Point
  heading : Heading
  facing : Facing
  bubble : Option Bubble
  highlight : Option AlarmId
  looping : Bool
  deriving DecidableEq

/-- What a host sees of a figure. -/
structure Snapshot where
  position : Point
  heading : Heading
  facing : Facing
  message : Option String
  highlighted : Bool
  looping : Bool
  deriving DecidableEq

namespace Figure

/-- A new figure: it points along the x axis, walks forward, is silent and not highlighted. -/
def new (position : Point) : Figure where
  position := position
  heading := .zero
  facing := .forward
  bubble := none
  highlight := none
  looping := false

/-- What a host sees. -/
def snapshot (f : Figure) : Snapshot where
  position := f.position
  heading := f.heading
  facing := f.facing
  message := f.bubble.map (·.text)
  highlighted := f.highlight.isSome
  looping := f.looping

/-- Walks along the heading, or against it if facing backwards; not at all if the number of steps
is not finite. -/
def walk (f : Figure) (steps : Float) : Figure :=
  if steps.isFinite then
    { f with position := f.position.advanced (steps * f.facing.sign) f.heading }
  else f

/-- Turns the heading. -/
def turn (f : Figure) (degrees : Float) : Figure :=
  { f with heading := f.heading.turned degrees }

/-- Jumps to a point; a coordinate that is not finite is kept as it is. -/
def goTo (f : Figure) (x y : Float) : Figure :=
  { f with
    position := Point.clamped (if x.isFinite then x else f.position.x)
      (if y.isFinite then y else f.position.y) }

/-- Says a text until an alarm rings. -/
def say (f : Figure) (text : String) (alarm : AlarmId) : Figure :=
  { f with bubble := some ⟨text, alarm⟩ }

/-- Says nothing. -/
def hush (f : Figure) : Figure := { f with bubble := none }

/-- Turns around and lights up until an alarm rings. -/
def strike (f : Figure) (alarm : AlarmId) : Figure :=
  { f with facing := f.facing.flip, highlight := some alarm }

/-- Goes dark. -/
def dim (f : Figure) : Figure := { f with highlight := none }

/-- The alarms that are set for a figure. -/
def alarms (f : Figure) : List AlarmId :=
  (f.bubble.map (·.alarm)).toList ++ f.highlight.toList

end Figure

end SpriteCanvas
