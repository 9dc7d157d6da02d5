/-!
# Decimal literals

Reads a decimal number that makes up a whole text: a sign, digits with at most one point among
them, and an exponent.  The result is the nearest double, an exact half going to the even one.
-/

namespace SpriteCanvas.Decimal

/-- The value of a run of digits, the most significant first, after those already read as `n`. -/
def digitsValue (n : Nat) (cs : List Char) : Nat :=
  cs.foldl (fun n c => 10 * n + (c.toNat - '0'.toNat)) n

/-- The exponent after its mark: an optional sign and at least one digit, up to the end. -/
def readExponent? (cs : List Char) : Option Int :=
  let (negative, ds) := match cs with
    | '-' :: ds => (true, ds)
    | '+' :: ds => (false, ds)
    | ds => (false, ds)
  if ds.isEmpty || !ds.all Char.isDigit then none
  else some (if negative then -(digitsValue 0 ds : Int) else digitsValue 0 ds)

/-- The nearest double to `m * 10 ^ e`. -/
def toFloat (m : Nat) (e : Int) : Float :=
  Float.ofScientific m (e < 0) e.natAbs

/-- A literal without its sign. -/
def readUnsigned? (cs : List Char) : Option Float :=
  let whole := cs.takeWhile Char.isDigit
  let (tenths, rest) := match cs.dropWhile Char.isDigit with
    | '.' :: r => (r.takeWhile Char.isDigit, r.dropWhile Char.isDigit)
    | r => ([], r)
  if whole.isEmpty && tenths.isEmpty then none
  else
    let m := digitsValue (digitsValue 0 whole) tenths
    let places : Int := tenths.length
    match rest with
    | [] => some (toFloat m (-places))
    | c :: r =>
      if c = 'e' || c = 'E' then (readExponent? r).map fun e => toFloat m (e - places) else none

/-- The double nearest to the decimal number that the whole text spells, if it spells one.  Beyond
the range of doubles that is an infinity. -/
def readLiteral? (cs : List Char) : Option Float :=
  match cs with
  | '-' :: r => (readUnsigned? r).map (-·)
  | '+' :: r => readUnsigned? r
  | r => readUnsigned? r

end SpriteCanvas.Decimal
