import SpriteCanvas.Binary64

/-!
# Shortest decimals

The reals that round to a positive double form an interval around it.  `shortest?` gives the
decimal in that interval with the fewest digits; of two such, the one nearer to the double, and
of two equally near, the one whose last digit is even.
-/

namespace SpriteCanvas

/-- `digits * 10 ^ exponent`. -/
structure Decimal where
  digits : Nat
  exponent : Int
  deriving DecidableEq, Repr

namespace Decimal

/-- Moves trailing zeros from the digits to the exponent, at most so many. -/
def stripZeros : Nat → Decimal → Decimal
  | 0, d => d
  | fuel + 1, d =>
    if d.digits ≠ 0 ∧ d.digits % 10 = 0 then stripZeros fuel ⟨d.digits / 10, d.exponent + 1⟩ else d

/-- The number of decimal digits of `n`, none for zero. -/
def digitCount : Nat → Nat
  | 0 => 0
  | n + 1 => digitCount ((n + 1) / 10) + 1

/-- The reals that round to a double, in quarters of its last place: from `low` to `high` times
`2 ^ exponent`, around `mid`, the ends belonging to it or not. -/
structure Basin where
  low : Nat
  mid : Nat
  high : Nat
  exponent : Int
  closed : Bool

/-- The basin of `m * 2 ^ e`.  Below a power of two the doubles are twice as dense, except below
the least normal one. -/
def Basin.ofDyadic (m : Nat) (e : Int) : Basin where
  low := if m = Nat.pow 2 52 ∧ -1074 < e then 4 * m - 1 else 4 * m - 2
  mid := 4 * m
  high := 4 * m + 2
  exponent := e - 2
  closed := m % 2 = 0

/-- Numerator and denominator of `n * 2 ^ e / 10 ^ k`. -/
def scaled (n : Nat) (e k : Int) : Nat × Nat :=
  (n * Nat.pow 2 e.toNat * Nat.pow 10 (-k).toNat, Nat.pow 2 (-e).toNat * Nat.pow 10 k.toNat)

/-- Whether `d * 10 ^ k` lies in the basin. -/
def Basin.holds (b : Basin) (d : Nat) (k : Int) : Bool :=
  let (low, den) := scaled b.low b.exponent k
  let (high, _) := scaled b.high b.exponent k
  if b.closed then low ≤ d * den && d * den ≤ high else low < d * den && d * den < high

/-- The multiple of `10 ^ k` in the basin that is nearest to its middle, if there is one among
the middle's two neighbours. -/
def Basin.nearest? (b : Basin) (k : Int) : Option Nat :=
  let (mid, den) := scaled b.mid b.exponent k
  let d := mid / den
  let r := mid % den
  match b.holds d k, b.holds (d + 1) k with
  | true, true => some (if 2 * r < den then d else if den < 2 * r then d + 1 else d + d % 2)
  | true, false => some d
  | false, true => some (d + 1)
  | false, false => none

/-- The exponent of ten of the leading digit of `m * 2 ^ e`. -/
def leadingExponent (m : Nat) (e : Int) : Int :=
  let (a, b) := scaled m e 0
  if b ≤ a then digitCount (a / b) - 1
  else
    -- The quotient `b / a` is at least `10 ^ j` and below `10 ^ (j + 1)`.
    let j := digitCount (b / a) - 1
    if a * Nat.pow 10 j = b then -j else -(j + 1)

/-- The first grid, from one digit on, that has a point in the basin. -/
def Basin.search (b : Basin) (top : Int) : Nat → Nat → Option Decimal
  | 0, _ => none
  | fuel + 1, n =>
    let k := top - n
    match b.nearest? k with
    | some d => some ⟨d, k⟩
    | none => b.search top fuel (n + 1)

/-- The shortest decimal that rounds to the double `m * 2 ^ e`. -/
def shortest? (m : Nat) (e : Int) : Option Decimal :=
  ((Basin.ofDyadic m e).search (leadingExponent m e) 18 0).map (stripZeros 18)

end Decimal

end SpriteCanvas
