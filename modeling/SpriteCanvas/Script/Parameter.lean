import SpriteCanvas.Decimal.Literal
import SpriteCanvas.Json.NumberText
import SpriteCanvas.Text.Blank

/-!
# Parameters

Readers of a block's parameters that accept any value.  An editor leaves an empty text where a
number was deleted, and old scripts hold numbers as texts; whatever is not a finite number counts
as zero, so that its block has no effect.
-/

namespace SpriteCanvas.Parameter

/-- The number in a parameter: a number, or a text that spells one, with white space around it or
not; zero if that is missing, something else or not finite. -/
def number : Option Json → Float
  | some (.number n) => n.toFloat
  | some (.text s) =>
    match Decimal.readLiteral? (Text.trimBlank s.toList) with
    | some x => if x.isFinite then x else 0
    | none => 0
  | _ => 0

/-- The text in a parameter; a number or flag is written out, and anything else is empty. -/
def text : Option Json → String
  | some (.text s) => s
  | some (.number n) => n.toText
  | some (.bool b) => if b then "true" else "false"
  | _ => ""

/-- The greatest count. -/
def maxCount : Nat := UInt32.size - 1

/-- A number as a count of passes: fractions round up, and a count is at least zero and at most
`maxCount`. -/
def count (x : Float) : UInt32 := UInt32.ofNat (min (Binary64.ceilNat x) maxCount)

end SpriteCanvas.Parameter
