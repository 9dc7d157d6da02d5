import SpriteCanvas.Json.Reader

/-!
# Skipping JSON

A value that nobody asks for is skipped: only its form counts.  A number may be beyond the range of
doubles, half of an escaped pair may stand alone, and brackets nest as deep as they like.
-/

namespace SpriteCanvas.Json

/-! ## Numbers and strings -/

/-- The characters after the sign of a number, if it has one. -/
def skipSign : List Char → List Char
  | '-' :: cs => cs
  | cs => cs

/-- Skips the part of a number after its point, if there is one. -/
def skipTenths : Read Unit
  | '.' :: cs => mapRead (fun _ => ()) readDigits cs
  | cs => .ok ((), cs)

/-- Skips the exponent of a number, if there is one. -/
def skipExponent : Read Unit
  | [] => .ok ((), [])
  | c :: cs =>
    if c = 'e' || c = 'E' then mapRead (fun _ => ()) readExponent cs else .ok ((), c :: cs)

/-- Skips a number after its sign. -/
def skipUnsigned (cs : List Char) : Except Fault (Unit × List Char) := do
  let (_, cs) ← readWholeDigits cs
  let ((), cs) ← skipTenths cs
  skipExponent cs

/-- Skips a number.  One that the text cuts off is malformed here. -/
def skipNumber (cs : List Char) : Except Fault (Unit × List Char) :=
  match skipUnsigned (skipSign cs) with
  | .ok ((), cs) => .ok ((), cs)
  | .error _ => .error .malformed

/-- Skips what follows a backslash, of a pair of units only the first. -/
def skipEscape : Read Unit
  | [] => .error .truncated
  | 'u' :: cs => mapRead (fun _ => ()) readUnit cs
  | c :: cs =>
    if c ∈ ['"', '\\', '/', 'b', 'f', 'n', 'r', 't'] then .ok ((), cs) else .error .malformed

/-- Skips the rest of a string and its closing quote. -/
def skipStringRest : List Char → Read Unit
  | [], _ | _, [] => .error .truncated
  | _ :: spine, c :: cs =>
    if c = '"' then .ok ((), cs)
    else if c = '\\' then do
      let ((), cs) ← skipEscape cs
      skipStringRest spine cs
    else if c.toNat < 0x20 then .error .malformed
    else skipStringRest spine cs

/-- Skips a string after its opening quote. -/
def skipString (cs : List Char) : Except Fault (Unit × List Char) := skipStringRest cs cs

/-! ## Values -/

/-- A bracket that is open. -/
inductive Bracket
  | list
  | object

/-- Skips a value that has no brackets, or the opening bracket of one that has. -/
def skipHead (cs : List Char) : Except Fault (Option Bracket × List Char) :=
  match skipSpace cs with
  | [] => .error .truncated
  | 'n' :: cs => mapRead (fun _ => none) (readWord ['u', 'l', 'l']) cs
  | 't' :: cs => mapRead (fun _ => none) (readWord ['r', 'u', 'e']) cs
  | 'f' :: cs => mapRead (fun _ => none) (readWord ['a', 'l', 's', 'e']) cs
  | '"' :: cs => mapRead (fun _ => none) skipString cs
  | '[' :: cs => .ok (some .list, cs)
  | '{' :: cs => .ok (some .object, cs)
  | c :: cs =>
    if c = '-' || c.isDigit then mapRead (fun _ => none) skipNumber (c :: cs)
    else .error .malformed

/-- Goes on to the next value in a bracket, past its key if it has one, or past the closing
bracket. -/
def nextIn (first : Bool) : Bracket → Read Bool
  | .list, cs => do
    let (more, cs) ← moreItems first cs
    if more then return (true, cs)
    else
      let ((), cs) ← closeList cs
      return (false, cs)
  | .object, cs => do
    let (more, cs) ← moreEntries first cs
    if more then
      let ((), cs) ← readKey skipString cs
      let ((), cs) ← readColon cs
      return (true, cs)
    else
      let ((), cs) ← closeObject cs
      return (false, cs)

/-- Skips what is left in the open brackets, the innermost first, and closes them. -/
def skipOpenRest : List Char → Bool → List Bracket → Read Unit
  | _, _, [], cs => .ok ((), cs)
  | [], _, _ :: _, _ => .error .truncated
  | _ :: spine, first, b :: outer, cs => do
    let (more, cs) ← nextIn first b cs
    if more then
      match ← skipHead cs with
      | (some inner, cs) => skipOpenRest spine true (inner :: b :: outer) cs
      | (none, cs) => skipOpenRest spine false (b :: outer) cs
    else skipOpenRest spine false outer cs

/-- Skips what is left in the open brackets; `first` tells that it comes right after the innermost
opening one. -/
def skipOpen (first : Bool) (brackets : List Bracket) (cs : List Char) :
    Except Fault (Unit × List Char) :=
  skipOpenRest cs first brackets cs

/-- Skips a value of any kind. -/
def skipValue (cs : List Char) : Except Fault (Unit × List Char) := do
  match ← skipHead cs with
  | (some b, cs) => skipOpen true [b] cs
  | (none, cs) => return ((), cs)

end SpriteCanvas.Json
