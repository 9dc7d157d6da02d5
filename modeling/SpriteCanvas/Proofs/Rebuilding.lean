import SpriteCanvas.Proofs.Reload

/-!
# Built scripts after a reload

A script need not come from a text: its builder may put any double into a command and any name on a
block.  Its text is still read, but not always as the same script.  A number that is not finite
comes back as zero, and a block whose name belongs to the vocabulary comes back as a command of it
(`Command.reloaded`).  These are the only losses: a script survives exactly if it has neither
(`Script.rebuild`).
-/

namespace SpriteCanvas

namespace Command

theorem beq_finiteOrZero (x : Float) : (x == finiteOrZero x) = x.isFinite := by
  by_cases hx : x.isFinite = true
  · rw [finiteOrZero_of_isFinite hx, hx]
    exact beq_self_of_isFinite hx
  · rw [finiteOrZero, if_neg hx, Bool.eq_false_of_not_eq_true hx, Bool.eq_false_iff]
    intro hzero
    -- Only the two zeros equal zero, and both are finite.
    obtain ⟨-, -, rfl | ⟨rfl, -⟩ | ⟨rfl, -⟩⟩ := Float.beq_iff_ne_nan_and_eq.1 hzero
    all_goals exact hx rfl

/-- A name of the vocabulary never comes back as an unknown name. -/
theorem unknown_same_ofNamed {name : String} {kind : CommandKind}
    (h : CommandKind.ofName? name = some kind) (value : Json) :
    (unknown name value).same (ofNamed name value) = false := by
  rw [ofNamed, h]
  cases kind <;> rfl

/-- A command equals what is read for it exactly if it is faithful. -/
theorem same_reloaded_iff (c : Command) : c.same c.reloaded = true ↔ c.Faithful := by
  cases c with
  | move x => exact iff_of_eq (congrArg (· = true) (beq_finiteOrZero x))
  | turn x => exact iff_of_eq (congrArg (· = true) (beq_finiteOrZero x))
  | goTo x y =>
    show (x == finiteOrZero x && y == finiteOrZero y) = true ↔ _
    rw [beq_finiteOrZero, beq_finiteOrZero, Bool.and_eq_true]
    exact .rfl
  | say text secs =>
    show (text == text && secs == finiteOrZero secs) = true ↔ _
    rw [beq_finiteOrZero, beq_self_eq_true, Bool.true_and]
    exact .rfl
  | think text secs =>
    show (text == text && secs == finiteOrZero secs) = true ↔ _
    rw [beq_finiteOrZero, beq_self_eq_true, Bool.true_and]
    exact .rfl
  | loop times => exact iff_of_true (beq_self_eq_true times) trivial
  | unknown name value =>
    show _ ↔ CommandKind.ofName? name = none
    cases h : CommandKind.ofName? name with
    | none =>
      rw [reloaded_of_faithful (c := unknown name value) h]
      exact iff_of_true (same_self h) rfl
    | some kind =>
      rw [reloaded, h]
      exact iff_of_false (by simp [unknown_same_ofNamed h]) fun h' => by cases h'

end Command

namespace Script

theorem same_reloaded_iff (s : Script) :
    s.same (s.map Block.reloaded) = true ↔ ∀ b ∈ s, b.command.Faithful := by
  induction s with
  | nil => exact iff_of_true rfl nofun
  | cons b s ih =>
    have hblock : b.same b.reloaded = b.command.same b.command.reloaded := by
      rw [Block.same, Block.reloaded, beq_self_eq_true, Bool.true_and]
    rw [List.map_cons, same, hblock, Bool.and_eq_true, Command.same_reloaded_iff, ih,
      List.forall_mem_cons]

/-- Let a script be built of any commands whose parameters fit a text, and let the text of each
double that it is written with read as that double.  Then its text is accepted and gives the script
with every number that is not finite replaced by zero and every unknown name of the vocabulary by
the command it names, block by block; that script equals the one that was built exactly if there
was nothing to replace. -/
theorem rebuild {s : Script} (hs : ∀ b ∈ s, b.command.Writable)
    (hdoubles : Json.DoublesReadBack (Json.list (s.map Block.toJson)).numbers) :
    ofText? s.toText = .ok (s.map Block.reloaded)
      ∧ (s.survivesReload = true ↔ ∀ b ∈ s, b.command.Faithful) := by
  have hread := ofText?_toText_eq hs hdoubles
  refine ⟨hread, ?_⟩
  rw [survivesReload, hread]
  exact same_reloaded_iff s

/-- A script with what is no number, an infinite number, a name of the vocabulary over parameters of
its own, the greatest count and a name outside the vocabulary. -/
def unevenBlocks : Script :=
  [⟨"a", .move (0 / 0)⟩, ⟨"b", .say "hi" (1 / 0)⟩,
    ⟨"c", .unknown "goto" (.object [("goto", .object [("x", .text "2.5")])])⟩,
    ⟨"d", .loop 4294967295⟩, ⟨"e", .unknown "blink" (.list [.ofFloat 0.1])⟩, ⟨"f", .turn (-0.0)⟩]

/-- Its first three blocks come back changed. -/
theorem rebuild_unevenBlocks :
    (∀ b ∈ unevenBlocks, b.command.Writable)
      ∧ Json.DoublesReadBack (Json.list (unevenBlocks.map Block.toJson)).numbers
      ∧ ofText? unevenBlocks.toText = .ok
        [⟨"a", .move 0⟩, ⟨"b", .say "hi" 0⟩, ⟨"c", .goTo 2.5 0⟩, ⟨"d", .loop 4294967295⟩,
          ⟨"e", .unknown "blink" (.list [.ofFloat 0.1])⟩, ⟨"f", .turn (-0.0)⟩]
      ∧ unevenBlocks.survivesReload = false := by
  have hgoTo : (Json.object [("goto", .object [("x", .text "2.5")])]).Fits Block.valueDepth :=
    Command.fits_singleton "goto" (Command.fits_singleton "x" (.text "2.5"))
  have hblink : (Json.list [.ofFloat 0.1]).Fits Block.valueDepth :=
    .list (List.forall_mem_singleton.2 (Command.fits_ofFloat 0.1 124))
  have hs : ∀ b ∈ unevenBlocks, b.command.Writable := by
    simp only [unevenBlocks, List.forall_mem_cons, Command.Writable]
    exact ⟨trivial, trivial, hgoTo, trivial, hblink, trivial, nofun⟩
  have hcheck : decide (∀ n ∈ (Json.list (unevenBlocks.map Block.toJson)).numbers, n.ReadsBack)
      = true := by
    decide +kernel
  have hdoubles : Json.DoublesReadBack (Json.list (unevenBlocks.map Block.toJson)).numbers :=
    fun x hx hmem => of_decide_eq_true hcheck _ hmem
  obtain ⟨hread, hsurvives⟩ := rebuild hs hdoubles
  refine ⟨hs, hdoubles, hread, ?_⟩
  rw [Bool.eq_false_iff]
  intro h
  have hfirst : (Command.move (0 / 0)).Faithful := hsurvives.1 h _ List.mem_cons_self
  cases hfirst

end Script

end SpriteCanvas
