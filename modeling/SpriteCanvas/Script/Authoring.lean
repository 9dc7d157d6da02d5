import SpriteCanvas.Json.Printer
import SpriteCanvas.Json.Record
import SpriteCanvas.Script.Command
import SpriteCanvas.Script.Parameter

/-!
# The authoring format

A script is written as a JSON list of blocks, each with its id, the name of its command and a bag
of parameters under that name.  Reading is lenient about parameters: it looks under the name as
written and then under the canonical one, and takes what it finds there as well as it can.
-/

namespace SpriteCanvas

namespace Command

/-- The command of a name with a bag of parameters. -/
def ofNamed (name : String) (value : Json) : Command :=
  match CommandKind.ofName? name with
  | none => unknown name value
  | some kind =>
    let slot := (value.get? name).or (value.get? kind.name)
    let field (key : String) := slot.bind (·.get? key)
    match kind with
    | .move => move (Parameter.number slot)
    | .turn => turn (Parameter.number slot)
    | .goTo => goTo (Parameter.number (field "x")) (Parameter.number (field "y"))
    | .say => say (Parameter.text (field "text")) (Parameter.number (field "sec"))
    | .think => think (Parameter.text (field "text")) (Parameter.number (field "sec"))
    | .loop => loop (Parameter.count (Parameter.number slot))

/-- The parameters of a command, without the name they stand under. -/
def parameters : Command → Json
  | move steps => .ofFloat steps
  | turn degrees => .ofFloat degrees
  | goTo x y => .object [("x", .ofFloat x), ("y", .ofFloat y)]
  | say text secs | think text secs => .object [("sec", .ofFloat secs), ("text", .text text)]
  | loop times => .ofCount times
  | unknown _ value => value

/-- The bag of parameters of a command. -/
def bag : Command → Json
  | unknown _ value => value
  | c => .object [(c.name, c.parameters)]

end Command

namespace Block

/-- A block as it is written. -/
structure Draft where
  id : String
  name : String
  value : Json

/-- The written form of a block: its id and its parameters may be left out. -/
def shape : Json.Shape Draft where
  title := "struct RawInstruction"
  fields := [
    ⟨"id", fun _ => Json.mapRead (fun s d => { d with id := s }) Json.readText, true, true⟩,
    ⟨"name", fun _ => Json.mapRead (fun s d => { d with name := s }) Json.readText, false, false⟩,
    ⟨"value", fun depth => Json.mapRead (fun v d => { d with value := v }) (Json.readValue depth),
      true, true⟩]
  initial := ⟨"", "", .null⟩

/-- The block of a written form. -/
def ofDraft (d : Draft) : Block := ⟨d.id, .ofNamed d.name d.value⟩

/-- Reads a block. -/
def read (depth : Nat) : Json.Read Block := Json.mapRead ofDraft (Json.readRecord shape depth)

/-- The written form of a block. -/
def toJson (b : Block) : Json :=
  .object [("id", .text b.id), ("name", .text b.name), ("value", b.command.bag)]

end Block

namespace Script

/-- Reads a script from its text. -/
def ofText? (s : String) : Except Fault Script :=
  Json.readWhole (Json.readListOf Block.read Json.maxDepth) s

/-- The text of a script. -/
def toText (script : Script) : String := (Json.list (script.map Block.toJson)).write

/-- Whether the text of a script reads back as an equal script. -/
def survivesReload (script : Script) : Bool :=
  match ofText? script.toText with
  | .ok read => script.same read
  | .error _ => false

end Script

end SpriteCanvas
