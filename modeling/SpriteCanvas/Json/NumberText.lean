import SpriteCanvas.Decimal.Shortest
import SpriteCanvas.Json.Value

/-!
# Numbers as text

A double is written with the fewest digits that read back: positionally from `1e-5` up to below
`1e16`, always with a point, and otherwise with an exponent that always has a sign.
-/

namespace SpriteCanvas.Number

/-- The decimal digits of a whole number, with a minus sign below zero. -/
def wholeText (n : Int) : List Char :=
  if n < 0 then '-' :: Nat.toDigits 10 n.natAbs else Nat.toDigits 10 n.natAbs

/-- Digits with an exponent: a point after the first digit if there are more. -/
def exponentForm (ds : List Char) (e : Int) : List Char :=
  let mantissa := match ds with
    | [] => ['0']
    | [d] => [d]
    | d :: rest => d :: '.' :: rest
  mantissa ++ 'e' :: (if e < 0 then '-' else '+') :: Nat.toDigits 10 e.natAbs

/-- Digits `ds * 10 ^ k` written positionally, with a point and at least one digit on each side
of it. -/
def positionalForm (ds : List Char) (k : Int) : List Char :=
  if 0 ≤ k then ds ++ List.replicate k.toNat '0' ++ ['.', '0']
  else
    let places := k.natAbs
    if places < ds.length then
      ds.take (ds.length - places) ++ '.' :: ds.drop (ds.length - places)
    else '0' :: '.' :: List.replicate (places - ds.length) '0' ++ ds

/-- The text of a positive decimal.  The exponent form starts where the leading digit stands for
`10 ^ 16` or more, or for less than `10 ^ (-5)`. -/
def decimalText (d : Decimal) : List Char :=
  let ds := Nat.toDigits 10 d.digits
  let e := d.exponent + (ds.length - 1 : Nat)
  if -5 ≤ e ∧ e < 16 then positionalForm ds d.exponent else exponentForm ds e

/-- The text of a finite double. -/
def doubleText (x : Float) : List Char :=
  let magnitude := match Binary64.magnitude? x with
    | some (m + 1, e) => ((Decimal.shortest? (m + 1) e).map decimalText).getD []
    | _ => ['0', '.', '0']
  -- The sign bit decides, so that a negative zero keeps its sign.
  if x.toBits < 0x8000000000000000 then magnitude else '-' :: magnitude

/-- The text of a number. -/
def chars : Number → List Char
  | whole n _ => wholeText n
  | double x _ => doubleText x

/-- The text of a number. -/
def toText (n : Number) : String := String.ofList n.chars

end SpriteCanvas.Number
