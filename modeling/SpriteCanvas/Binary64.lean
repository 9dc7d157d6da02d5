/-!
# Exact operations on doubles

A finite double is a whole number times a power of two.  The operations here take it apart,
compute on whole numbers and round at most once: the remainder by a whole number, the distance
function `hypot`, rounding to whole numbers, and the nearest whole number of billionths.
-/

namespace SpriteCanvas.Binary64

open Float.Model

/-- The double nearest to `m * 2 ^ e`, an exact half going to the even neighbour; a zero gets
the sign `zeroSign`. -/
def ofDyadic (m e : Int) (zeroSign : UnpackedFloat.Sign) : Float :=
  .ofModel (pack (UnpackedFloat.normalize Format.binary64 m e zeroSign))

/-- The magnitude of a finite double as a whole number and the exponent of a power of two. -/
def magnitude? (x : Float) : Option (Nat × Int) :=
  match x.toModel.unpack with
  | .finite _ m e _ => some (m, e)
  | .zero _ => some (0, 0)
  | .infinity _ | .notANumber => none

/-- The remainder of `x` by `n`, with the sign of `x`.  It is always a double, so nothing is
rounded. -/
def remainder (x : Float) (n : Nat) : Float :=
  match x.toModel.unpack with
  | .finite s m e _ =>
    if 0 ≤ e then ofDyadic (s.apply (m * Nat.pow 2 e.toNat % n)) 0 s
    else ofDyadic (s.apply (m % (n * Nat.pow 2 (-e).toNat))) e s
  | .zero _ => x
  | .infinity _ | .notANumber => 0 / 0

/-- The square root of a whole number times a power of four, rounded once. -/
def sqrtScaled (m : Nat) (e : Int) : Float :=
  if h : 0 < m then
    .ofModel (pack (UnpackedFloat.sqrt Format.binary64 (.finite .positive m (2 * e) h)))
  else 0

/-- The length of the vector `(x, y)`: the root of the exact sum of squares, rounded once. -/
def hypot (x y : Float) : Float :=
  match magnitude? x, magnitude? y with
  | some (m, e), some (n, f) =>
    let d := min e f
    let a := m * Nat.pow 2 (e - d).toNat
    let b := n * Nat.pow 2 (f - d).toNat
    sqrtScaled (a * a + b * b) d
  | _, _ => if x.isInf || y.isInf then 1 / 0 else 0 / 0

/-- The least natural number that is not below `x`; zero if `x` is not finite. -/
def ceilNat (x : Float) : Nat :=
  match x.toModel.unpack with
  | .finite .positive m e _ =>
    if 0 ≤ e then m * Nat.pow 2 e.toNat else (m + Nat.pow 2 (-e).toNat - 1) / Nat.pow 2 (-e).toNat
  | _ => 0

/-- The quotient of two natural numbers, rounded to nearest, an exact half to the even one. -/
def divHalfEven (a b : Nat) : Nat :=
  let q := a / b
  let r := a % b
  if 2 * r < b then q else if b < 2 * r then q + 1 else q + q % 2

/-- `x * k` rounded to the nearest natural number, an exact half to the even one; zero if `x` is
not positive and finite. -/
def mulRoundNat (x : Float) (k : Nat) : Nat :=
  match x.toModel.unpack with
  | .finite .positive m e _ =>
    if 0 ≤ e then m * Nat.pow 2 e.toNat * k else divHalfEven (m * k) (Nat.pow 2 (-e).toNat)
  | _ => 0

/-- The whole number nearest to `x`, an exact half going away from zero; zero if `x` is not
finite. -/
def roundHalfAway (x : Float) : Int :=
  match x.toModel.unpack with
  | .finite s m e _ =>
    if 0 ≤ e then s.apply (m * Nat.pow 2 e.toNat)
    else s.apply ((2 * m + Nat.pow 2 (-e).toNat) / (2 * Nat.pow 2 (-e).toNat) : Nat)
  | _ => 0

end SpriteCanvas.Binary64
