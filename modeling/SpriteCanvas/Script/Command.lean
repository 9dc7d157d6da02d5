import SpriteCanvas.Binary64
import SpriteCanvas.Json.Value

/-!
# Scripts

A script is a list of blocks, each a command with the id that its author's editor gave it.  There
are six kinds of command; a block with any other name is kept as it is, and does nothing.
-/

namespace SpriteCanvas

/-- The vocabulary of scripts. -/
inductive CommandKind where
  | move
  | turn
  | goTo
  | say
  | think
  | loop
  deriving DecidableEq, Repr

namespace CommandKind

/-- Every kind, in the order of the palette. -/
def all : List CommandKind := [move, turn, goTo, say, think, loop]

/-- The name under which a kind is written. -/
def name : CommandKind → String
  | move => "steps"
  | turn => "degrees"
  | goTo => "coords"
  | say => "say"
  | think => "think"
  | loop => "repeat"

/-- The kind of a name; some kinds have readable names beside the one they are written under. -/
def ofName? : String → Option CommandKind
  | "steps" | "move" => some move
  | "degrees" | "turn" => some turn
  | "coords" | "goto" | "go_to" => some goTo
  | "say" => some say
  | "think" => some think
  | "repeat" => some loop
  | _ => none

end CommandKind

/-- What a block does. -/
inductive Command where
  /-- Walk along the heading, or against it if the sprite faces backwards. -/
  | move (steps : Float)
  /-- Turn the heading. -/
  | turn (degrees : Float)
  /-- Jump to a point. -/
  | goTo (x y : Float)
  /-- Show a speech bubble for some seconds. -/
  | say (text : String) (secs : Float)
  /-- Show a thought bubble for some seconds, in place of any other bubble. -/
  | think (text : String) (secs : Float)
  /-- Run the blocks after this one a number of times. -/
  | loop (times : UInt32)
  /-- A name outside the vocabulary, with its parameters. -/
  | unknown (name : String) (value : Json)

namespace Command

/-- The kind of a command of the vocabulary. -/
def kind? : Command → Option CommandKind
  | move _ => some .move
  | turn _ => some .turn
  | goTo _ _ => some .goTo
  | say _ _ => some .say
  | think _ _ => some .think
  | loop _ => some .loop
  | unknown _ _ => none

/-- The name under which a command is written. -/
def name : Command → String
  | unknown name _ => name
  | move _ => CommandKind.move.name
  | turn _ => CommandKind.turn.name
  | goTo _ _ => CommandKind.goTo.name
  | say _ _ => CommandKind.say.name
  | think _ _ => CommandKind.think.name
  | loop _ => CommandKind.loop.name

/-- Whether a command is a loop. -/
def isLoop : Command → Bool
  | loop _ => true
  | _ => false

/-- Equality of commands, with the equality of doubles: the two zeros are equal, and what is not
a number differs from itself. -/
def same : Command → Command → Bool
  | move a, move b => a == b
  | turn a, turn b => a == b
  | goTo a b, goTo c d => a == c && b == d
  | say s a, say t b => s == t && a == b
  | think s a, think t b => s == t && a == b
  | loop m, loop n => m == n
  | unknown m v, unknown n w => m == n && v.same w
  | _, _ => false

end Command

/-- One block of a script. -/
structure Block where
  id : String
  command : Command

namespace Block

/-- Equality of blocks. -/
def same (a b : Block) : Bool := a.id == b.id && a.command.same b.command

/-- The name under which a block is written. -/
def name (b : Block) : String := b.command.name

end Block

/-- The blocks of one sprite, in order. -/
abbrev Script := List Block

namespace Script

/-- Equality of scripts, block by block. -/
def same : Script → Script → Bool
  | [], [] => true
  | a :: s, b :: t => a.same b && same s t
  | _, _ => false

/-- The blocks that a loop over `script` repeats; a loop among them is left out. -/
def body (script : Script) : Script := script.filter fun b => !b.command.isLoop

/-- The blocks in the order in which they run: those before the first loop, and then its body as
often as the loop says. -/
def unrolled : Script → Script
  | [] => []
  | b :: rest =>
    match b.command with
    | .loop times => (List.replicate times.toNat (body rest)).flatten
    | _ => b :: unrolled rest

theorem unrolled_cons_of_loop {b : Block} {times : UInt32} (h : b.command = .loop times)
    (rest : Script) : unrolled (b :: rest) = (List.replicate times.toNat (body rest)).flatten := by
  rw [unrolled, h]

theorem unrolled_cons_of_not_loop {b : Block} (h : ∀ times, b.command ≠ .loop times)
    (rest : Script) : unrolled (b :: rest) = b :: unrolled rest := by
  rw [unrolled]
  split
  · rename_i times hb
    exact absurd hb (h times)
  · rfl

end Script

end SpriteCanvas
