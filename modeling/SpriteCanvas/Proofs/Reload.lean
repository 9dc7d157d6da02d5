import SpriteCanvas.Proofs.RecordReading
import SpriteCanvas.Proofs.WholeDoubles
import SpriteCanvas.Script.Authoring

/-!
# Scripts survive a reload

A block is written under its canonical name with a canonical bag of parameters, and reading makes
of these the same block again, but for a number that is not finite and for a name kept as it is
although it belongs to the vocabulary (`Command.reloaded`, `Command.ofNamed_bag`).  A block that was
read has neither, and what it keeps as it is nests no deeper than a block may
(`Block.plain_of_read`).  So a script that was read from any text reads back from its own text
(`Script.reload`).
-/

namespace SpriteCanvas

/-! ## What reading makes -/

theorem Parameter.isFinite_number (v : Option Json) : (number v).isFinite = true := by
  unfold number
  split
  · rename_i n
    cases n with
    | whole n h => exact Binary64.isFinite_ofInt h
    | double x h => exact h
  · split
    · split
      · assumption
      · rfl
    · rfl
  · rfl

/-- How deep the brackets of a block's parameters may nest: those of the script and of the block
are around them. -/
def Block.valueDepth : Nat := Json.maxDepth - 2

namespace Command

/-- A command that can stand in a text: parameters kept as they are nest no deeper than a block's
may. -/
def Writable : Command → Prop
  | unknown _ value => value.Fits Block.valueDepth
  | _ => True

/-- A command that keeps its meaning in a text: its numbers are finite, and a name kept as it is
does not belong to the vocabulary. -/
def Faithful : Command → Prop
  | move x | turn x => x.isFinite = true
  | goTo x y => x.isFinite = true ∧ y.isFinite = true
  | say _ secs | think _ secs => secs.isFinite = true
  | loop _ => True
  | unknown name _ => CommandKind.ofName? name = none

/-- A command as reading makes it: its numbers are finite, and a name outside the vocabulary comes
with parameters that fit a text. -/
def Plain : Command → Prop
  | move x | turn x => x.isFinite = true
  | goTo x y => x.isFinite = true ∧ y.isFinite = true
  | say _ secs | think _ secs => secs.isFinite = true
  | loop _ => True
  | unknown name value => CommandKind.ofName? name = none ∧ value.Fits Block.valueDepth

theorem Plain.faithful {c : Command} (h : c.Plain) : c.Faithful := by
  cases c with
  | unknown name value => exact h.1
  | _ => exact h

theorem Plain.writable {c : Command} (h : c.Plain) : c.Writable := by
  cases c with
  | unknown name value => exact h.2
  | _ => trivial

theorem plain_ofNamed (name : String) {value : Json} (h : value.Fits Block.valueDepth) :
    (ofNamed name value).Plain := by
  unfold ofNamed
  split
  · rename_i hn
    exact ⟨hn, h⟩
  · rename_i kind _
    have hnumber := Parameter.isFinite_number
    cases kind with
    | goTo => exact ⟨hnumber _, hnumber _⟩
    | loop => trivial
    | _ => exact hnumber _

end Command

namespace Block

theorem keeps_fits (depth : Nat) :
    Json.Shape.Keeps shape.fields depth fun d => d.value.Fits depth := by
  intro f hf cs put rest h d hd
  simp only [shape, List.mem_cons, List.not_mem_nil, or_false] at hf
  rcases hf with rfl | rfl | rfl
  · obtain ⟨_, -, rfl⟩ := Json.mapRead_eq_ok.1 h
    exact hd
  · obtain ⟨_, -, rfl⟩ := Json.mapRead_eq_ok.1 h
    exact hd
  · obtain ⟨v, hv, rfl⟩ := Json.mapRead_eq_ok.1 h
    exact Json.fits_of_readValue hv

theorem plain_of_read {cs rest : List Char} {b : Block}
    (h : read (valueDepth + 1) cs = .ok (b, rest)) : b.command.Plain := by
  obtain ⟨d, hd, rfl⟩ := Json.mapRead_eq_ok.1 h
  exact Command.plain_ofNamed d.name (Json.readRecord_keeps (keeps_fits _) .null hd)

end Block

namespace Script

/-- Every block of a script that was read is as reading makes it. -/
theorem plain_of_ofText? {text : String} {s : Script} (h : ofText? text = .ok s) :
    ∀ b ∈ s, b.command.Plain := by
  obtain ⟨rest, h, -⟩ := Json.readWhole_eq_ok.1 h
  unfold Json.readListOf at h
  split at h
  · exact Json.forall_of_readList Block.plain_of_read h
  · exact absurd h Json.wrongKind_ne_ok

end Script

/-! ## What reading makes of what was written -/

namespace Command

/-- The number that is read where `x` was written: zero if `x` is not finite. -/
def finiteOrZero (x : Float) : Float := if x.isFinite then x else 0

theorem finiteOrZero_of_isFinite {x : Float} (h : x.isFinite = true) : finiteOrZero x = x :=
  if_pos h

/-- The command that is read where a command was written. -/
def reloaded : Command → Command
  | move steps => move (finiteOrZero steps)
  | turn degrees => turn (finiteOrZero degrees)
  | goTo x y => goTo (finiteOrZero x) (finiteOrZero y)
  | say text secs => say text (finiteOrZero secs)
  | think text secs => think text (finiteOrZero secs)
  | loop times => loop times
  | unknown name value =>
    if (CommandKind.ofName? name).isSome then ofNamed name value else unknown name value

theorem reloaded_of_faithful {c : Command} (h : c.Faithful) : c.reloaded = c := by
  cases c with
  | move x => exact congrArg move (finiteOrZero_of_isFinite h)
  | turn x => exact congrArg turn (finiteOrZero_of_isFinite h)
  | goTo x y =>
    exact congrArg₂ goTo (finiteOrZero_of_isFinite h.1) (finiteOrZero_of_isFinite h.2)
  | say text secs => exact congrArg (say text) (finiteOrZero_of_isFinite h)
  | think text secs => exact congrArg (think text) (finiteOrZero_of_isFinite h)
  | loop times => rfl
  | unknown name value =>
    have hname : CommandKind.ofName? name = none := h
    rw [reloaded, hname]
    rfl

/-- What is not finite is written as null, which is no number. -/
theorem number_ofFloat (x : Float) : Parameter.number (some (.ofFloat x)) = finiteOrZero x := by
  unfold Json.ofFloat finiteOrZero
  split <;> rfl

/-- From the bag of a command the command is made that is read for it. -/
theorem ofNamed_bag (c : Command) : ofNamed c.name c.bag = c.reloaded := by
  cases c with
  | move x => exact congrArg move (number_ofFloat x)
  | turn x => exact congrArg turn (number_ofFloat x)
  | goTo x y => exact congrArg₂ goTo (number_ofFloat x) (number_ofFloat y)
  | say text secs => exact congrArg (say text) (number_ofFloat secs)
  | think text secs => exact congrArg (think text) (number_ofFloat secs)
  | loop times => exact congrArg loop (Parameter.count_ofInt times)
  | unknown name value =>
    cases hname : CommandKind.ofName? name <;> simp [ofNamed, reloaded, Command.name, bag, hname]

theorem fits_ofFloat (x : Float) (d : Nat) : (Json.ofFloat x).Fits d := by
  unfold Json.ofFloat
  split
  · exact .number _
  · exact .null

/-- One level of brackets around a value that stands alone. -/
theorem fits_singleton {d : Nat} {v : Json} (k : String) (h : v.Fits d) :
    (Json.object [(k, v)]).Fits (d + 1) :=
  .object (List.pairwise_singleton _ _) (List.forall_mem_singleton.2 h)

theorem fits_pair {d : Nat} {k l : String} {v w : Json} (hkl : k < l) (hv : v.Fits d)
    (hw : w.Fits d) : (Json.object [(k, v), (l, w)]).Fits (d + 1) :=
  .object (List.pairwise_pair.2 hkl) (List.forall_mem_cons.2 ⟨hv, List.forall_mem_singleton.2 hw⟩)

/-- The bag of a command nests no deeper than a block may. -/
theorem fits_bag {c : Command} (h : c.Writable) : c.bag.Fits Block.valueDepth := by
  cases c with
  | move x => exact fits_singleton _ (fits_ofFloat x _)
  | turn x => exact fits_singleton _ (fits_ofFloat x _)
  | goTo x y =>
    exact fits_singleton _ (fits_pair (by decide) (fits_ofFloat x _) (fits_ofFloat y _))
  | say text secs =>
    exact fits_singleton _ (fits_pair (by decide) (fits_ofFloat secs _) (.text text))
  | think text secs =>
    exact fits_singleton _ (fits_pair (by decide) (fits_ofFloat secs _) (.text text))
  | loop times => exact fits_singleton _ (.number _)
  | unknown name value => exact h

end Command

namespace Block

open Json

/-- The block that is read where a block was written. -/
def reloaded (b : Block) : Block := ⟨b.id, b.command.reloaded⟩

theorem reloaded_of_faithful {b : Block} (h : b.command.Faithful) : b.reloaded = b := by
  rw [reloaded, Command.reloaded_of_faithful h]

theorem reads_read {b : Block} (hb : b.command.Writable)
    (h : DoublesReadBack b.toJson.numbers) : Reads (read (valueDepth + 1)) b.reloaded b.toJson := by
  have hbag : Reads (readValue valueDepth) b.command.bag b.command.bag :=
    reads_readValue (Command.fits_bag hb) (h.of_mem_entries (List.mem_of_getElem? (i := 2) rfl))
  have hfields : ReadsEntries shape valueDepth [] shape.initial
      [("id", .text b.id), ("name", .text b.name), ("value", b.command.bag)]
      ⟨b.id, b.name, b.command.bag⟩ :=
    .cons (.field rfl rfl ((reads_readText b.id).mapRead _)) <|
    .cons (.field rfl rfl ((reads_readText b.name).mapRead _)) <|
    .cons (.field rfl rfl (hbag.mapRead _)) <|
    .nil rfl
  have hread : Reads (read (valueDepth + 1)) ⟨b.id, .ofNamed b.name b.command.bag⟩ b.toJson :=
    (reads_readRecord hfields).mapRead ofDraft
  rwa [Block.name, Command.ofNamed_bag] at hread

end Block

/-! ## Equality -/

theorem beq_self_of_isFinite {x : Float} (h : x.isFinite = true) : (x == x) = true := by
  refine Float.beq_self_iff.2 ?_
  rintro rfl
  cases h

namespace Json

theorem sameItems_self {items : List Json} (h : ∀ v ∈ items, v.same v = true) :
    sameItems items items = true := by
  induction items with
  | nil => rfl
  | cons v items ih =>
    obtain ⟨hv, hrest⟩ := List.forall_mem_cons.1 h
    rw [sameItems, hv, ih hrest]
    rfl

theorem sameEntries_self {entries : List (String × Json)} (h : ∀ e ∈ entries, e.2.same e.2 = true) :
    sameEntries entries entries = true := by
  induction entries with
  | nil => rfl
  | cons e entries ih =>
    obtain ⟨hv, hrest⟩ := List.forall_mem_cons.1 h
    rw [sameEntries, hv, ih hrest, beq_self_eq_true]
    rfl

/-- A value equals itself, since all its doubles are numbers. -/
theorem same_self (v : Json) : v.same v = true := by
  induction v using Json.induction with
  | null => rfl
  | bool b => cases b <;> rfl
  | number n =>
    cases n with
    | whole n h => exact beq_self_eq_true n
    | double x h => exact beq_self_of_isFinite h
  | text s => exact beq_self_eq_true s
  | list items ih => exact sameItems_self ih
  | object entries ih => exact sameEntries_self ih

end Json

theorem Command.same_self {c : Command} (h : c.Faithful) : c.same c = true := by
  cases c with
  | move x => exact beq_self_of_isFinite h
  | turn x => exact beq_self_of_isFinite h
  | goTo x y => exact Bool.and_eq_true_iff.2 ⟨beq_self_of_isFinite h.1, beq_self_of_isFinite h.2⟩
  | say text secs => exact Bool.and_eq_true_iff.2 ⟨beq_self_eq_true text, beq_self_of_isFinite h⟩
  | think text secs => exact Bool.and_eq_true_iff.2 ⟨beq_self_eq_true text, beq_self_of_isFinite h⟩
  | loop times => exact beq_self_eq_true times
  | unknown name value =>
    exact Bool.and_eq_true_iff.2 ⟨beq_self_eq_true name, Json.same_self value⟩

namespace Script

theorem same_self {s : Script} (hs : ∀ b ∈ s, b.command.Plain) : s.same s = true := by
  induction s with
  | nil => rfl
  | cons b s ih =>
    obtain ⟨hb, hrest⟩ := List.forall_mem_cons.1 hs
    refine Bool.and_eq_true_iff.2 ⟨?_, ih hrest⟩
    exact Bool.and_eq_true_iff.2 ⟨beq_self_eq_true b.id, Command.same_self hb.faithful⟩

/-- What is read from the text of a script, if the doubles in that text read back. -/
theorem ofText?_toText_eq {s : Script} (hs : ∀ b ∈ s, b.command.Writable)
    (h : Json.DoublesReadBack (Json.list (s.map Block.toJson)).numbers) :
    ofText? s.toText = .ok (s.map Block.reloaded) := by
  have hreads : ∀ b ∈ s, Json.Reads (Block.read (Block.valueDepth + 1)) b.reloaded b.toJson :=
    fun b hb => Block.reads_read (hs b hb) (h.of_mem_items (List.mem_map_of_mem hb))
  obtain ⟨cs, hcs, hlist⟩ := Json.readList_chars hreads []
  refine Json.readWhole_eq_ok.2 ⟨[], ?_, rfl⟩
  rw [toText, Json.write, String.toList_ofList, ← List.append_nil (Json.chars _), hcs]
  exact hlist

/-- A script of plain blocks reads back from its text, if the doubles in that text do. -/
theorem ofText?_toText {s : Script} (hs : ∀ b ∈ s, b.command.Plain)
    (h : Json.DoublesReadBack (Json.list (s.map Block.toJson)).numbers) :
    ofText? s.toText = .ok s := by
  have hkept : s.map Block.reloaded = s.map id :=
    List.map_congr_left fun b hb => Block.reloaded_of_faithful (hs b hb).faithful
  rw [ofText?_toText_eq (fun b hb => (hs b hb).writable) h, hkept, List.map_id]

/-- Let a script be read from any text, and let the text of each double that it is written with
read as that double.  Then the text that the script is written as is accepted, it gives an equal
script, and that script is written as the same text. -/
theorem reload {text : String} {s : Script} (h : ofText? text = .ok s)
    (hdoubles : Json.DoublesReadBack (Json.list (s.map Block.toJson)).numbers) :
    ∃ s', ofText? s.toText = .ok s' ∧ s.same s' = true ∧ s'.toText = s.toText :=
  ⟨s, ofText?_toText (plain_of_ofText? h) hdoubles, same_self (plain_of_ofText? h), rfl⟩

/-- A script with an alias, a coordinate as a text, a block as a list, a fraction as a count, an
entry that is no field and holds a number beyond all doubles, and an unknown name with a key
twice. -/
def mixedText : String :=
  "[\x7b\"name\":\"goto\",\"value\":\x7b\"coords\":\x7b\"x\":\" 2.5 \",\"y\":-0.0\x7d\x7d\x7d," ++
    "[\"b\",\"repeat\",\x7b\"repeat\":1.5\x7d]," ++
    "\x7b\"name\":\"blink\",\"note\":[1e999]," ++
    "\"value\":\x7b\"b\":1,\"a\":[0.1,\x7b\x7d],\"b\":null\x7d\x7d]"

/-- It survives a reload. -/
theorem reload_mixedText : ∃ s, ofText? mixedText = .ok s
    ∧ Json.DoublesReadBack (Json.list (s.map Block.toJson)).numbers
    ∧ ∃ s', ofText? s.toText = .ok s' ∧ s.same s' = true ∧ s'.toText = s.toText := by
  have hcheck : ((ofText? mixedText).toOption.elim false fun s =>
      decide (∀ n ∈ (Json.list (s.map Block.toJson)).numbers, n.ReadsBack)) = true := by
    decide +kernel
  rcases hs : ofText? mixedText with fault | s
  · rw [hs] at hcheck
    cases hcheck
  · rw [hs] at hcheck
    have hdoubles : Json.DoublesReadBack (Json.list (s.map Block.toJson)).numbers :=
      fun x hx hmem => of_decide_eq_true hcheck _ hmem
    exact ⟨s, rfl, hdoubles, reload hs hdoubles⟩

end Script

end SpriteCanvas
