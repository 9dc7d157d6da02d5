import SpriteCanvas.Text.Printable

/-!
# Quoted text

The form in which a message shows a text: between double quotes, with short escapes for the tab,
line ends, the zero character, the backslash and the quote, and hexadecimal ones for what does
not print.
-/

namespace SpriteCanvas.Text

/-- A code point in lower-case hexadecimal digits, in braces. -/
def hexEscape (c : Char) : List Char :=
  '\\' :: 'u' :: '\x7b' :: Nat.toDigits 16 c.toNat ++ ['\x7d']

/-- One character between the quotes. -/
def quotedChar (c : Char) : List Char :=
  match c with
  | '\x00' => ['\\', '0']
  | '\t' => ['\\', 't']
  | '\n' => ['\\', 'n']
  | '\r' => ['\\', 'r']
  | '\\' => ['\\', '\\']
  | '"' => ['\\', '"']
  | _ => if extendsPrevious c || !isPrintable c then hexEscape c else [c]

/-- A text between double quotes. -/
def quoted (s : String) : String :=
  String.ofList ('"' :: s.toList.flatMap quotedChar ++ ['"'])

end SpriteCanvas.Text
