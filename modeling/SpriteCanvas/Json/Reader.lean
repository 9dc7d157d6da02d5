import SpriteCanvas.Json.Fault

/-!
# Reading JSON

A reader takes the characters ahead and gives a value with the characters after it, or the first
fault.  `readValue` reads any value: of a repeated key the last value counts, and brackets nest
to a given depth.

A loop over characters, items or entries recurses on a `spine`, a list as long as the text ahead.
Each round takes at least one character, so when the spine ends the text has ended too.

A number is read in double arithmetic: the leading digits that fit an unsigned 64-bit word, times
or divided by a power of ten.  This is not always the double nearest to the literal.
-/

namespace SpriteCanvas.Json

/-- A reader of values of type `α`. -/
abbrev Read (α : Type) := List Char → Except Fault (α × List Char)

/-- Reads with `read` and applies `f` to the value. -/
def mapRead {α β : Type} (f : α → β) (read : Read α) : Read β := fun cs =>
  match read cs with
  | .ok (x, cs) => .ok (f x, cs)
  | .error fault => .error fault

/-- The characters that may stand between the parts of a value. -/
def isSpace (c : Char) : Bool :=
  c = ' ' || c = '\n' || c = '\t' || c = '\r'

/-- The characters from the first one that is not a space. -/
def skipSpace (cs : List Char) : List Char := cs.dropWhile isSpace

/-- Reads exactly the given characters. -/
def readWord : List Char → Read Unit
  | [], cs => .ok ((), cs)
  | _ :: _, [] => .error .truncated
  | w :: ws, c :: cs => if c = w then readWord ws cs else .error .malformed

/-! ## Numbers -/

/-- A decimal as it is collected: the digits so far and the power of ten they stand for. -/
structure Digits where
  significand : Nat
  exponent : Int

/-- Adds the digits of the part before the point.  From the first digit on that does not fit the
word, each stands for one more power of ten. -/
def Digits.whole (d : Digits) : List Char → Digits
  | [] => d
  | c :: cs =>
    let n := d.significand * 10 + (c.toNat - '0'.toNat)
    if n < UInt64.size then Digits.whole ⟨n, d.exponent⟩ cs
    else ⟨d.significand, d.exponent + (c :: cs).length⟩

/-- Adds the digits of the part after the point, up to the first that does not fit the word. -/
def Digits.fraction (d : Digits) : List Char → Digits
  | [] => d
  | c :: cs =>
    let n := d.significand * 10 + (c.toNat - '0'.toNat)
    if n < UInt64.size then Digits.fraction ⟨n, d.exponent - 1⟩ cs else d

/-- The double nearest to a power of ten. -/
def powerOfTen (n : Nat) : Float := Float.ofScientific 1 false n

/-- The significand scaled by its power of ten.  Only powers up to `10 ^ 308` are doubles, so a
smaller scale divides twice, and one beyond twice that range gives zero. -/
def Digits.toFloat (d : Digits) : Float :=
  let x := Float.ofNat d.significand
  if d.significand = 0 then 0
  else if 0 ≤ d.exponent then
    if d.exponent ≤ 308 then x * powerOfTen d.exponent.toNat else 1 / 0
  else if -308 ≤ d.exponent then x / powerOfTen d.exponent.natAbs
  else if -616 ≤ d.exponent then x / powerOfTen 308 / powerOfTen (d.exponent.natAbs - 308)
  else 0

/-- The number a literal with a point or an exponent stands for; a fault beyond the range of
doubles. -/
def Digits.toNumber (d : Digits) (negative : Bool) : Except Fault Number :=
  let x := if negative then -d.toFloat else d.toFloat
  if h : x.isFinite = true then .ok (.double x h) else .error .malformed

/-- The number that plain digits stand for: a whole number where a 64-bit word holds it, but a
negative zero is a double. -/
def wholeNumber (negative : Bool) (ds : List Char) : Except Fault Number :=
  let d := Digits.whole ⟨0, 0⟩ ds
  if d.exponent = 0 then
    let n : Int := if negative then -d.significand else d.significand
    if h : FitsWord n ∧ ¬(negative ∧ n = 0) then .ok (.whole n h.1)
    else d.toNumber negative
  else d.toNumber negative

/-- Reads one or more digits. -/
def readDigits : Read (List Char)
  | [] => .error .truncated
  | c :: cs =>
    if c.isDigit then .ok (c :: cs.takeWhile Char.isDigit, cs.dropWhile Char.isDigit)
    else .error .malformed

/-- Reads digits without a leading zero, other than zero itself. -/
def readWholeDigits : Read (List Char)
  | '0' :: c :: cs => if c.isDigit then .error .malformed else .ok (['0'], c :: cs)
  | cs => readDigits cs

/-- Reads the exponent after its mark. -/
def readExponent (cs : List Char) : Except Fault (Int × List Char) := do
  let (negative, cs) := match cs with
    | '-' :: r => (true, r)
    | '+' :: r => (false, r)
    | r => (false, r)
  let (ds, cs) ← readDigits cs
  let n : Int := ds.foldl (fun n c => 10 * n + (c.toNat - '0'.toNat)) 0
  return (if negative then -n else n, cs)

/-- Reads a number. -/
def readNumber (cs : List Char) : Except Fault (Number × List Char) := do
  let (negative, cs) := match cs with
    | '-' :: r => (true, r)
    | r => (false, r)
  let (whole, cs) ← readWholeDigits cs
  let (tenths, cs) ← match cs with
    | '.' :: r => readDigits r
    | r => pure ([], r)
  let d := ((⟨0, 0⟩ : Digits).whole whole).fraction tenths
  match cs with
  | c :: r =>
    if c = 'e' || c = 'E' then
      let (e, r) ← readExponent r
      return (← Digits.toNumber ⟨d.significand, d.exponent + e⟩ negative, r)
    else if tenths.isEmpty then return (← wholeNumber negative whole, c :: r)
    else return (← d.toNumber negative, c :: r)
  | [] =>
    if tenths.isEmpty then return (← wholeNumber negative whole, [])
    else return (← d.toNumber negative, [])

/-! ## Strings -/

/-- The value of a hexadecimal digit. -/
def hexDigit? (c : Char) : Option Nat :=
  if '0' ≤ c ∧ c ≤ '9' then some (c.toNat - '0'.toNat)
  else if 'a' ≤ c ∧ c ≤ 'f' then some (c.toNat - 'a'.toNat + 10)
  else if 'A' ≤ c ∧ c ≤ 'F' then some (c.toNat - 'A'.toNat + 10)
  else none

/-- Whether at least `n` bytes are ahead. -/
def hasBytes : Nat → List Char → Bool
  | 0, _ => true
  | _ + 1, [] => false
  | n + 1, c :: cs => hasBytes (n + 1 - c.utf8Size) cs

/-- Reads a 16-bit unit of four hexadecimal digits.  A text that has fewer than four bytes left
ends too early, whatever they are. -/
def readUnit (cs : List Char) : Except Fault (Nat × List Char) :=
  if !hasBytes 4 cs then .error .truncated
  else match cs with
    | a :: b :: c :: d :: rest =>
      match hexDigit? a, hexDigit? b, hexDigit? c, hexDigit? d with
      | some a, some b, some c, some d => .ok (((a * 16 + b) * 16 + c) * 16 + d, rest)
      | _, _, _, _ => .error .malformed
    | _ => .error .malformed

/-- Reads the units of an escaped character: one, or the two halves of a pair. -/
def readEscapedUnits (cs : List Char) : Except Fault (Char × List Char) := do
  let (high, cs) ← readUnit cs
  if 0xdc00 ≤ high ∧ high ≤ 0xdfff then throw .malformed
  if high < 0xd800 ∨ 0xdbff < high then return (Char.ofNat high, cs)
  let ((), cs) ← readWord ['\\', 'u'] cs
  let (low, cs) ← readUnit cs
  if low < 0xdc00 ∨ 0xdfff < low then throw .malformed
  return (Char.ofNat (0x10000 + (high - 0xd800) * 0x400 + (low - 0xdc00)), cs)

/-- Reads what follows a backslash. -/
def readEscape : Read Char
  | [] => .error .truncated
  | '"' :: cs => .ok ('"', cs)
  | '\\' :: cs => .ok ('\\', cs)
  | '/' :: cs => .ok ('/', cs)
  | 'b' :: cs => .ok ('\x08', cs)
  | 'f' :: cs => .ok ('\x0c', cs)
  | 'n' :: cs => .ok ('\n', cs)
  | 'r' :: cs => .ok ('\r', cs)
  | 't' :: cs => .ok ('\t', cs)
  | 'u' :: cs => readEscapedUnits cs
  | _ :: _ => .error .malformed

/-- Reads the rest of a string and its closing quote, after the characters `done` in reverse. -/
def readStringRest : List Char → List Char → Read String
  | [], _, _ | _, _, [] => .error .truncated
  | _ :: spine, done, c :: cs =>
    if c = '"' then .ok (String.ofList done.reverse, cs)
    else if c = '\\' then do
      let (e, cs) ← readEscape cs
      readStringRest spine (e :: done) cs
    else if c.toNat < 0x20 then .error .malformed
    else readStringRest spine (c :: done) cs

/-- Reads a string after its opening quote. -/
def readString (cs : List Char) : Except Fault (String × List Char) := readStringRest cs [] cs

/-! ## Lists and objects -/

/-- Whether a list or an object goes on: `false` at the bracket that closes it, which is left
ahead. -/
def goesOn (close : Char) (first : Bool) (cs : List Char) : Except Fault (Bool × List Char) :=
  match skipSpace cs with
  | [] => .error .truncated
  | c :: rest =>
    if c = close then .ok (false, c :: rest)
    else if first then .ok (true, c :: rest)
    else if c = ',' then
      match skipSpace rest with
      | [] => .error .truncated
      | c :: rest => if c = close then .error .malformed else .ok (true, c :: rest)
    else .error .malformed

/-- Reads a mark that stands between values or behind them. -/
def readMark (mark : Char) (cs : List Char) : Except Fault (Unit × List Char) :=
  match skipSpace cs with
  | [] => .error .truncated
  | c :: rest => if c = mark then .ok ((), rest) else .error .malformed

/-- Whether a list goes on. -/
def moreItems : Bool → Read Bool := goesOn ']'

/-- Reads the closing bracket of a list. -/
def closeList : Read Unit := readMark ']'

/-- Whether an object goes on. -/
def moreEntries : Bool → Read Bool := goesOn '}'

/-- Reads a key from its opening quote on, and with `key` after it. -/
def readKey {α : Type} (key : Read α) : Read α
  | '"' :: cs => key cs
  | _ => .error .malformed

/-- Reads the key of the next entry, or gives `none` at the closing brace, which is left ahead. -/
def nextKey (first : Bool) (cs : List Char) : Except Fault (Option String × List Char) := do
  let (more, cs) ← moreEntries first cs
  if more then
    let (k, cs) ← readKey readString cs
    return (some k, cs)
  else return (none, cs)

/-- Reads the colon after a key. -/
def readColon : Read Unit := readMark ':'

/-- Reads the closing brace of an object. -/
def closeObject : Read Unit := readMark '}'

/-- Reads the items of a list after its opening bracket, after the items `done` in reverse. -/
def readItems {α : Type} (item : Read α) : List Char → List α → Read (List α)
  | [], _, _ => .error .truncated
  | _ :: spine, done, cs => do
    let (more, cs) ← moreItems done.isEmpty cs
    if more then
      let (x, cs) ← item cs
      readItems item spine (x :: done) cs
    else return (done.reverse, cs)

/-- Reads a list after its opening bracket. -/
def readList {α : Type} (item : Read α) (cs : List Char) : Except Fault (List α × List Char) := do
  let (items, cs) ← readItems item cs [] cs
  let ((), cs) ← closeList cs
  return (items, cs)

/-- Reads the entries of an object after its opening brace, in addition to `entries`. -/
def readEntries (value : Read Json) :
    List Char → Bool → List (String × Json) → Read (List (String × Json))
  | [], _, _, _ => .error .truncated
  | _ :: spine, first, entries, cs => do
    match ← nextKey first cs with
    | (none, cs) => return (entries, cs)
    | (some k, cs) =>
      let ((), cs) ← readColon cs
      let (v, cs) ← value cs
      readEntries value spine false (insert k v entries) cs

/-- Reads an object after its opening brace. -/
def readObject (value : Read Json) (cs : List Char) :
    Except Fault (List (String × Json) × List Char) := do
  let (entries, cs) ← readEntries value cs true [] cs
  let ((), cs) ← closeObject cs
  return (entries, cs)

/-! ## Values -/

/-- Reads a value of any kind in which brackets nest at most `depth` deep. -/
def readValue : Nat → Read Json
  | depth, cs =>
    match skipSpace cs with
    | [] => .error .truncated
    | 'n' :: cs => do
      let ((), cs) ← readWord ['u', 'l', 'l'] cs
      return (.null, cs)
    | 't' :: cs => do
      let ((), cs) ← readWord ['r', 'u', 'e'] cs
      return (.bool true, cs)
    | 'f' :: cs => do
      let ((), cs) ← readWord ['a', 'l', 's', 'e'] cs
      return (.bool false, cs)
    | '"' :: cs => do
      let (s, cs) ← readString cs
      return (.text s, cs)
    | '[' :: cs =>
      match depth with
      | 0 => .error .malformed
      | depth + 1 => do
        let (items, cs) ← readList (readValue depth) cs
        return (.list items, cs)
    | '{' :: cs =>
      match depth with
      | 0 => .error .malformed
      | depth + 1 => do
        let (entries, cs) ← readObject (readValue depth) cs
        return (.object entries, cs)
    | c :: cs =>
      if c = '-' || c.isDigit then do
        let (n, cs) ← readNumber (c :: cs)
        return (.number n, cs)
      else .error .malformed

/-- How deep the brackets of a text may nest. -/
def maxDepth : Nat := 127

/-- Reads a whole text: one value of the reader, and nothing but space around it. -/
def readWhole {α : Type} (value : Read α) (s : String) : Except Fault α := do
  let (x, cs) ← value s.toList
  if (skipSpace cs).isEmpty then return x else throw .malformed

/-- Reads a text that holds one value of any kind. -/
def read (s : String) : Except Fault Json := readWhole (readValue maxDepth) s

end SpriteCanvas.Json
