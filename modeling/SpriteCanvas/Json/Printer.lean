import SpriteCanvas.Json.NumberText

/-!
# Writing JSON

A value is written without spaces, the entries of an object in their order.
-/

namespace SpriteCanvas.Json

/-- A character inside a string: the quote, the backslash and the control characters are
escaped. -/
def stringChar (c : Char) : List Char :=
  match c with
  | '"' => ['\\', '"']
  | '\\' => ['\\', '\\']
  | '\x08' => ['\\', 'b']
  | '\x0c' => ['\\', 'f']
  | '\n' => ['\\', 'n']
  | '\r' => ['\\', 'r']
  | '\t' => ['\\', 't']
  | _ =>
    if c.toNat < 0x20 then
      ['\\', 'u', '0', '0', Nat.digitChar (c.toNat / 16), Nat.digitChar (c.toNat % 16)]
    else [c]

/-- A string between its quotes. -/
def stringChars (s : String) : List Char :=
  '"' :: s.toList.flatMap stringChar ++ ['"']

mutual

/-- The characters of a value. -/
def chars : Json → List Char
  | null => ['n', 'u', 'l', 'l']
  | bool true => ['t', 'r', 'u', 'e']
  | bool false => ['f', 'a', 'l', 's', 'e']
  | number n => n.chars
  | text s => stringChars s
  | list [] => ['[', ']']
  | list (x :: xs) => '[' :: (chars x ++ itemsChars xs)
  | object [] => ['\x7b', '\x7d']
  | object ((k, v) :: rest) =>
    '\x7b' :: (stringChars k ++ ':' :: (chars v ++ entriesChars rest))

/-- The items after the first, and the closing bracket. -/
def itemsChars : List Json → List Char
  | [] => [']']
  | x :: xs => ',' :: (chars x ++ itemsChars xs)

/-- The entries after the first, and the closing brace. -/
def entriesChars : List (String × Json) → List Char
  | [] => ['\x7d']
  | (k, v) :: rest => ',' :: (stringChars k ++ ':' :: (chars v ++ entriesChars rest))

end

/-- The text of a value. -/
def write (v : Json) : String := String.ofList v.chars

end SpriteCanvas.Json
