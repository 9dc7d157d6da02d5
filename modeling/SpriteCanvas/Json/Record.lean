import SpriteCanvas.Json.Skip

/-!
# Reading records

Readers that ask for a shape: a text, a number, a flag, a variant, and a record.  A record is an
object, of which unknown keys are skipped, or a list of its fields in their order.  A value of
another kind is read as far as needed to name it in the fault.
-/

namespace SpriteCanvas.Json

/-- The fault of a value that is not of the expected kind.  Literals, numbers and strings are
read first, so that their own faults come before it. -/
def wrongKind {α : Type} (expected : String) (cs : List Char) : Except Fault α :=
  let fault (found : Found) : Except Fault α := .error (.shape (.wrongKind found expected))
  match cs with
  | [] => .error .truncated
  | 'n' :: cs => do
    let _ ← readWord ['u', 'l', 'l'] cs
    fault .null
  | 't' :: cs => do
    let _ ← readWord ['r', 'u', 'e'] cs
    fault (.bool true)
  | 'f' :: cs => do
    let _ ← readWord ['a', 'l', 's', 'e'] cs
    fault (.bool false)
  | '"' :: cs => do
    let (s, _) ← readString cs
    fault (.text s)
  | '[' :: _ => fault .list
  | '{' :: _ => fault .object
  | c :: cs =>
    if c = '-' || c.isDigit then do
      let (n, _) ← readNumber (c :: cs)
      fault (.number n)
    else .error .malformed

/-- Reads a text, called `expected` in faults. -/
def readTextAs (expected : String) (cs : List Char) : Except Fault (String × List Char) :=
  match skipSpace cs with
  | '"' :: cs => readString cs
  | cs => wrongKind expected cs

/-- Reads a text. -/
def readText : Read String := readTextAs "a string"

/-- Reads a text or null. -/
def readOptionalText (cs : List Char) : Except Fault (Option String × List Char) :=
  match skipSpace cs with
  | 'n' :: cs => do
    let ((), cs) ← readWord ['u', 'l', 'l'] cs
    return (none, cs)
  | cs => do
    let (s, cs) ← readText cs
    return (some s, cs)

/-- Reads a number as the nearest double. -/
def readFloat (cs : List Char) : Except Fault (Float × List Char) :=
  match skipSpace cs with
  | c :: cs =>
    if c = '-' || c.isDigit then do
      let (n, cs) ← readNumber (c :: cs)
      return (n.toFloat, cs)
    else wrongKind "f64" (c :: cs)
  | [] => wrongKind "f64" []

/-- Reads a flag. -/
def readFlag (cs : List Char) : Except Fault (Bool × List Char) :=
  match skipSpace cs with
  | 't' :: cs => do
    let ((), cs) ← readWord ['r', 'u', 'e'] cs
    return (true, cs)
  | 'f' :: cs => do
    let ((), cs) ← readWord ['a', 'l', 's', 'e'] cs
    return (false, cs)
  | cs => wrongKind "a boolean" cs

/-- Reads null and nothing else. -/
def readNull (cs : List Char) : Except Fault (Unit × List Char) :=
  match skipSpace cs with
  | 'n' :: cs => readWord ['u', 'l', 'l'] cs
  | cs => wrongKind "unit" cs

/-- Reads a list, with `item` for its items; brackets nest at most `depth` deep. -/
def readListOf {α : Type} (item : Nat → Read α) (depth : Nat) (cs : List Char) :
    Except Fault (List α × List Char) :=
  match skipSpace cs with
  | '[' :: cs =>
    match depth with
    | 0 => .error .malformed
    | depth + 1 => readList (item depth) cs
  | cs => wrongKind "a sequence" cs

/-! ## Variants -/

/-- The one of two named variants that `name` names. -/
def variantNamed {α : Type} (first second : String × α) (name : String) : Except Fault α :=
  if name = first.1 then .ok first.2
  else if name = second.1 then .ok second.2
  else .error (.shape (.unknownVariant name first.1 second.1))

/-- Reads one of two variants, written as its name or as an object from its name to null. -/
def readVariant {α : Type} (first second : String × α) (depth : Nat) (cs : List Char) :
    Except Fault (α × List Char) :=
  match skipSpace cs with
  | [] => .error .truncated
  | '"' :: cs => do
    let (name, cs) ← readString cs
    return (← variantNamed first second name, cs)
  | '{' :: cs =>
    match depth with
    | 0 => .error .malformed
    | _ + 1 => do
      let (name, cs) ← readTextAs "variant identifier" cs
      let x ← variantNamed first second name
      let ((), cs) ← readColon cs
      let ((), cs) ← readNull cs
      let ((), cs) ← closeObject cs
      return (x, cs)
  | _ => .error .malformed

/-! ## Records -/

/-- A field of a record type `σ`: how to read it, and whether a list may end before it or an
object lack it, in which case it keeps its initial value. -/
structure Field (σ : Type) where
  name : String
  read : Nat → Read (σ → σ)
  endsList : Bool
  optional : Bool

/-- A record type: its name in faults, its fields in order and its initial value. -/
structure Shape (σ : Type) where
  title : String
  fields : List (Field σ)
  initial : σ

namespace Shape

variable {σ : Type} (shape : Shape σ) (depth : Nat)

/-- Reads the fields `fields` from a list in which `present` items have been read. -/
def readFromList : List (Field σ) → Nat → σ → Read σ
  | [], _, x, cs => .ok (x, cs)
  | f :: fields, present, x, cs => do
    let (more, cs) ← moreItems (present = 0) cs
    if more then
      let (put, cs) ← f.read depth cs
      readFromList fields (present + 1) (put x) cs
    else if f.endsList then readFromList fields (present + 1) x cs
    else throw (.shape (.shortList present shape.title shape.fields.length))

/-- The fault of an object that has only the fields `seen`, if it lacks one. -/
def firstMissing? (seen : List String) : Option String :=
  (shape.fields.find? fun f => !seen.contains f.name && !f.optional).map (·.name)

/-- Reads the entries of an object after those of the fields `seen`. -/
def readFromObject : List Char → Bool → List String → σ → Read σ
  | [], _, _, _, _ => .error .truncated
  | _ :: spine, first, seen, x, cs => do
    match ← nextKey first cs with
    | (none, cs) =>
      match shape.firstMissing? seen with
      | some name => throw (.shape (.missingField name))
      | none => return (x, cs)
    | (some k, cs) =>
      match shape.fields.find? (·.name = k) with
      | none =>
        let ((), cs) ← readColon cs
        let ((), cs) ← skipValue cs
        readFromObject spine false seen x cs
      | some f =>
        if seen.contains k then throw (.shape (.duplicateField k))
        let ((), cs) ← readColon cs
        let (put, cs) ← f.read depth cs
        readFromObject spine false (k :: seen) (put x) cs

end Shape

/-- Reads a record; brackets nest at most `depth` deep. -/
def readRecord {σ : Type} (shape : Shape σ) (depth : Nat) (cs : List Char) :
    Except Fault (σ × List Char) :=
  match skipSpace cs with
  | '[' :: cs =>
    match depth with
    | 0 => .error .malformed
    | depth + 1 => do
      let (x, cs) ← shape.readFromList depth shape.fields 0 shape.initial cs
      let ((), cs) ← closeList cs
      return (x, cs)
  | '{' :: cs =>
    match depth with
    | 0 => .error .malformed
    | depth + 1 => do
      let (x, cs) ← shape.readFromObject depth cs true [] shape.initial cs
      let ((), cs) ← closeObject cs
      return (x, cs)
  | cs => wrongKind shape.title cs

end SpriteCanvas.Json
