import SpriteCanvas.Json.NumberText
import SpriteCanvas.Text.Quoted

/-!
# What can be wrong with a text

A text may not be JSON, may end before its value is complete, or may be well formed as far as it
was read and yet not have the shape asked for.  Reading goes from left to right and reports the
first fault.
-/

namespace SpriteCanvas

/-- A value of the wrong kind, as far as a message shows it. -/
inductive Found where
  | null
  | bool (b : Bool)
  | number (n : Number)
  | text (s : String)
  | list
  | object

/-- How a value can miss the shape that was asked for. -/
inductive ShapeFault where
  | missingField (name : String)
  | duplicateField (name : String)
  | wrongKind (found : Found) (expected : String)
  | shortList (present : Nat) (expected : String) (elements : Nat)
  | unknownVariant (found : String) (first second : String)

/-- The first fault of a text. -/
inductive Fault where
  /-- The text is not JSON. -/
  | malformed
  /-- The text ends inside a value. -/
  | truncated
  /-- The text is well formed so far but has another shape. -/
  | shape (fault : ShapeFault)

namespace Found

/-- The value as a message shows it. -/
def describe : Found → String
  | null => "null"
  | bool b => s!"boolean `{b}`"
  | number (.whole n _) => s!"integer `{n}`"
  | number (.double x h) => s!"floating point `{(Number.double x h).toText}`"
  | text s => s!"string {Text.quoted s}"
  | list => "sequence"
  | object => "map"

end Found

namespace ShapeFault

/-- The message of a fault. -/
def message : ShapeFault → String
  | missingField name => s!"missing field `{name}`"
  | duplicateField name => s!"duplicate field `{name}`"
  | wrongKind found expected => s!"invalid type: {found.describe}, expected {expected}"
  | shortList present expected elements =>
    s!"invalid length {present}, expected {expected} with {elements} elements"
  | unknownVariant found first second =>
    s!"unknown variant `{found}`, expected `{first}` or `{second}`"

end ShapeFault

/-- The message of a fault; only one of shape has a text. -/
def Fault.message : Fault → String
  | shape fault => fault.message
  | malformed | truncated => ""

end SpriteCanvas
