/-!
# JSON values

A number is a whole number that fits a 64-bit word, signed or not, or a finite double; the two
kinds are never equal.  The keys of an object are in ascending order and distinct, which
`Json.insert` keeps.
-/

namespace SpriteCanvas

/-- A whole number fits a 64-bit word, signed or not. -/
abbrev FitsWord (n : Int) : Prop := -9223372036854775808 ≤ n ∧ n < 18446744073709551616

/-- A JSON number. -/
inductive Number where
  | whole (n : Int) (inRange : FitsWord n)
  | double (x : Float) (isFinite : x.isFinite = true)

namespace Number

/-- The nearest double. -/
def toFloat : Number → Float
  | whole n _ => Float.ofInt n
  | double x _ => x

/-- Equality of numbers of one kind; the two zeros are equal. -/
def same : Number → Number → Bool
  | whole m _, whole n _ => m == n
  | double x _, double y _ => x == y
  | _, _ => false

end Number

/-- A JSON value. -/
inductive Json where
  | null
  | bool (b : Bool)
  | number (n : Number)
  | text (s : String)
  | list (items : List Json)
  | object (entries : List (String × Json))

namespace Json

instance : Inhabited Json := ⟨null⟩

mutual

/-- Equality of values, with the equality of doubles: the two zeros are equal. -/
def same : Json → Json → Bool
  | null, null => true
  | bool a, bool b => a == b
  | number m, number n => m.same n
  | text s, text t => s == t
  | list xs, list ys => sameItems xs ys
  | object xs, object ys => sameEntries xs ys
  | _, _ => false

/-- Equality of lists of values. -/
def sameItems : List Json → List Json → Bool
  | [], [] => true
  | x :: xs, y :: ys => same x y && sameItems xs ys
  | _, _ => false

/-- Equality of the entries of objects. -/
def sameEntries : List (String × Json) → List (String × Json) → Bool
  | [], [] => true
  | (k, x) :: xs, (l, y) :: ys => k == l && same x y && sameEntries xs ys
  | _, _ => false

end

/-- A double as a value; one that is not finite has no number and is null. -/
def ofFloat (x : Float) : Json :=
  if h : x.isFinite = true then number (.double x h) else null

/-- A 32-bit count as a value. -/
def ofCount (n : UInt32) : Json :=
  number (.whole n.toNat (by have := n.toNat_lt; omega))

/-- The entries with `k` at `v`, in ascending order of keys; a former value of `k` is replaced. -/
def insert (k : String) (v : Json) : List (String × Json) → List (String × Json)
  | [] => [(k, v)]
  | (l, w) :: rest =>
    if k < l then (k, v) :: (l, w) :: rest
    else if k = l then (k, v) :: rest
    else (l, w) :: insert k v rest

/-- The value of a key, if this is an object that has it. -/
def get? (v : Json) (k : String) : Option Json :=
  match v with
  | object entries => entries.lookup k
  | _ => none

end Json

end SpriteCanvas
