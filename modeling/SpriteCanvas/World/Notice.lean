import SpriteCanvas.Cast.Roster

/-!
# Notices

What a host is told: that a sprite looks different now, with a snapshot taken right after the
change, or that a sprite was removed.
-/

namespace SpriteCanvas

/-- A part of a sprite that a host may have to draw again. -/
inductive Change where
  | registered
  | position
  | rotation
  | message
  | highlight
  | facing
  deriving DecidableEq, Repr

namespace Change

/-- Every change, by its bit. -/
def all : List Change := [registered, position, rotation, message, highlight, facing]

/-- The bit of a change. -/
def bit : Change → Nat
  | registered => 1
  | position => 2
  | rotation => 4
  | message => 8
  | highlight => 16
  | facing => 32

/-- The name of a change. -/
def name : Change → String
  | registered => "REGISTERED"
  | position => "POSITION"
  | rotation => "ROTATION"
  | message => "MESSAGE"
  | highlight => "HIGHLIGHT"
  | facing => "FACING"

/-- The bits of several different changes. -/
def bits (changes : List Change) : Nat := changes.foldl (fun n c => n + c.bit) 0

end Change

/-- A sprite looks different, or shall be drawn again as it is if nothing is listed. -/
structure Update where
  id : SpriteId
  target : String
  changes : List Change
  snapshot : Snapshot

/-- What a host is told. -/
inductive Notice where
  | update (u : Update)
  | removed (id : SpriteId) (target : String)

end SpriteCanvas
