import SpriteCanvas.Proofs.Bounds
import SpriteCanvas.Proofs.Chronicle
import SpriteCanvas.Proofs.ExactValues
import SpriteCanvas.Proofs.Lookup

/-!
# Turns by whole degrees

A turn by a whole number of degrees takes a heading of a whole number of degrees to another one, and
nothing is rounded on the way (`Heading.isWhole_turned`).  So any number of such turns add up
modulo 360, whatever their signs and their order (`World.whole_turns`).
-/

namespace SpriteCanvas

open Binary64 (IsWhole)

/-! ## One turn -/

/-- The remainder with the sign of the angle, moved up by a turn if it is negative. -/
theorem emod_eq_tmod (a : Int) :
    a % 360 = if a.tmod 360 < 0 then a.tmod 360 + 360 else a.tmod 360 := by
  have h := Int.tmod_eq_emod (a := a) (b := 360)
  rw [show (360 : Int).natAbs = 360 from rfl] at h
  split_ifs at h ⊢ <;> omega

namespace Heading

variable {x : Float} {h : Heading} {a k : Int}

theorem isWhole_zero : IsWhole 0 0 := Binary64.isWhole_ofNat (by decide)

theorem isWhole_360 : IsWhole 360 360 := Binary64.isWhole_ofNat (by decide)

theorem isWhole_wrap (hx : IsWhole x a) : IsWhole (wrap x) (a % 360) := by
  have hr : IsWhole (Binary64.remainder x 360) (a.tmod 360) := hx.remainder (by decide) (by decide)
  have hneg : Binary64.remainder x 360 < 0 ↔ a.tmod 360 < 0 := hr.lt_iff isWhole_zero
  rw [wrap, emod_eq_tmod]
  by_cases h0 : a.tmod 360 < 0
  · have hlt : -360 < a.tmod 360 := Int.lt_tmod_of_pos a (by decide)
    rw [if_pos h0]
    simp only [hneg.2 h0, if_true]
    exact hr.add isWhole_360 (by omega)
  · rw [if_neg h0]
    simp only [mt hneg.1 h0, if_false]
    exact hr

theorem isWhole_ofDegrees (hx : IsWhole x a) : IsWhole (ofDegrees x).degrees (a % 360) := by
  have hw := isWhole_wrap hx
  have hless : ¬ 360 ≤ wrap x := by
    rw [isWhole_360.le_iff hw, Int.not_le]
    exact Int.emod_lt_of_pos a (by decide)
  rw [ofDegrees, if_pos hx.isFinite]
  simp only [hless, if_false]
  exact hw

/-- Turning by a whole number of degrees adds it to the heading, modulo a full turn. -/
theorem isWhole_turned (ha : IsWhole h.degrees a) (hk : IsWhole x k)
    (hsum : (a + k).natAbs < 2 ^ 53) : IsWhole (h.turned x).degrees ((a + k) % 360) := by
  rw [turned, if_pos hk.isFinite]
  exact isWhole_ofDegrees (ha.add hk hsum)

theorem Wrapped.le_lt (hw : h.Wrapped) (ha : IsWhole h.degrees a) : 0 ≤ a ∧ a < 360 :=
  ⟨(isWhole_zero.le_iff ha).1 hw.1, (ha.lt_iff isWhole_360).1 hw.2⟩

end Heading

/-! ## Any number of turns -/

/-- A block turns by a whole number of degrees, of at most 2^52 either way. -/
def Block.TurnsBy (b : Block) (k : Int) : Prop :=
  ∃ degrees, b.command = .turn degrees ∧ IsWhole degrees k ∧ k.natAbs ≤ 2 ^ 52

namespace World

variable (settings : Settings) (now : Nat)

/-- A part executes blocks one after the other. -/
def executeAll (r : Role) (script : Script) (w : World) : World :=
  script.foldl (fun w b => (w.perform settings now (.execute r b)).1) w

/-- A turn changes the heading and nothing else of the sprite. -/
theorem find?_execute_turn {w : World} {r : Role} {m : Member} {b : Block} {degrees : Float}
    (hm : w.cast.find? r.id = some m) (hb : b.command = .turn degrees) :
    (w.perform settings now (.execute r b)).1.cast.find? r.id
      = some { m with figure := m.figure.turn degrees } := by
  have hworld : (w.perform settings now (.execute r b)).1
      = w.updateFigure r.id (·.turn degrees) := by
    simp only [perform, hm, hb]
    exact congrArg (w.updateFigure · (·.turn degrees)) (Cast.id_of_find? hm)
  rw [hworld, updateFigure, Cast.find?_update_self, hm, Option.map_some]

/-- Turns by whole degrees add up modulo 360. -/
theorem find?_executeAll_turns {r : Role} {script : Script} {ks : List Int}
    (hs : List.Forall₂ Block.TurnsBy script ks) : ∀ {w : World} {m : Member} {a : Int},
    w.cast.find? r.id = some m → IsWhole m.figure.heading.degrees a → 0 ≤ a → a < 360 →
    ∃ h : Heading, (w.executeAll settings now r script).cast.find? r.id
        = some { m with figure := { m.figure with heading := h } }
      ∧ IsWhole h.degrees ((a + ks.sum) % 360) := by
  induction hs with
  | nil =>
    intro w m a hm ha h0 h360
    refine ⟨m.figure.heading, hm, ?_⟩
    rwa [List.sum_nil, add_zero, Int.emod_eq_of_lt h0 h360]
  | @cons b k script ks hb _ ih =>
    intro w m a hm ha h0 h360
    obtain ⟨degrees, hcommand, hk, hle⟩ := hb
    have hturn := Heading.isWhole_turned ha hk (by omega)
    obtain ⟨h, hfind, hwhole⟩ := ih (find?_execute_turn settings now hm hcommand) hturn
      (Int.emod_nonneg _ (by decide)) (Int.emod_lt_of_pos _ (by decide))
    refine ⟨h, hfind, ?_⟩
    rwa [Int.emod_add_emod, add_assoc, ← List.sum_cons] at hwhole

/-- A sprite whose heading is a whole number of degrees and that turns by whole degrees comes to the
heading of their sum, modulo 360, exactly, and nothing else of it changes.  So two lists of turns
come to equal headings just if their sums differ by full turns: the order does not matter, turns
can be merged, and turns that make up full ones can be added or left out. -/
theorem whole_turns {w : World} {r : Role} {m : Member} {a : Int}
    (hm : w.cast.find? r.id = some m) (hwrapped : m.figure.heading.Wrapped)
    (ha : IsWhole m.figure.heading.degrees a) {script script' : Script} {ks ks' : List Int}
    (hs : List.Forall₂ Block.TurnsBy script ks) (hs' : List.Forall₂ Block.TurnsBy script' ks') :
    ∃ h h' : Heading,
      (w.executeAll settings now r script).cast.find? r.id
          = some { m with figure := { m.figure with heading := h } }
        ∧ IsWhole h.degrees ((a + ks.sum) % 360)
        ∧ (w.executeAll settings now r script').cast.find? r.id
          = some { m with figure := { m.figure with heading := h' } }
        ∧ IsWhole h'.degrees ((a + ks'.sum) % 360)
        ∧ ((h.degrees == h'.degrees) = true ↔ ks.sum ≡ ks'.sum [ZMOD 360]) := by
  obtain ⟨h0, h360⟩ := hwrapped.le_lt ha
  obtain ⟨h, hfind, hwhole⟩ := find?_executeAll_turns settings now hs hm ha h0 h360
  obtain ⟨h', hfind', hwhole'⟩ := find?_executeAll_turns settings now hs' hm ha h0 h360
  refine ⟨h, h', hfind, hwhole, hfind', hwhole', ?_⟩
  rw [hwhole.beq_iff hwhole']
  exact ⟨fun h => Int.ModEq.add_left_cancel' a h, fun h => Int.ModEq.add_left a h⟩

/-- A new sprite that turns very far, a quarter back and once around comes to the same heading as by
286 degrees. -/
theorem whole_turns_of_new_sprite : ∃ w m h h',
    w = (World.initial.perform .default 0 (.answer (.register "a" .center [] "t"))).1
      ∧ w.cast.find? "a" = some m
      ∧ (w.executeAll .default 0 ⟨0, "a", 0⟩ [⟨"1", .turn (Float.ofInt 4503599627370496)⟩,
          ⟨"2", .turn (Float.ofInt (-90))⟩, ⟨"3", .turn (Float.ofInt 360)⟩]).cast.find? "a"
        = some { m with figure := { m.figure with heading := h } }
      ∧ IsWhole h.degrees 286
      ∧ (w.executeAll .default 0 ⟨0, "a", 0⟩ [⟨"1", .turn (Float.ofInt 286)⟩]).cast.find? "a"
        = some { m with figure := { m.figure with heading := h' } }
      ∧ (h.degrees == h'.degrees) = true := by
  have hturns : ∀ (id : String) (k : Int), k.natAbs ≤ 2 ^ 52 →
      Block.TurnsBy ⟨id, .turn (Float.ofInt k)⟩ k :=
    fun id k hk => ⟨_, rfl, Binary64.isWhole_ofInt (by omega), hk⟩
  obtain ⟨h, h', hfind, hwhole, hfind', -, heq⟩ := whole_turns .default 0
    (w := (World.initial.perform .default 0 (.answer (.register "a" .center [] "t"))).1)
    (r := ⟨0, "a", 0⟩) (m := _) rfl Heading.wrapped_zero Heading.isWhole_zero
    (.cons (hturns "1" 4503599627370496 (by decide)) (.cons (hturns "2" (-90) (by decide))
      (.cons (hturns "3" 360 (by decide)) .nil)))
    (.cons (hturns "1" 286 (by decide)) .nil)
  exact ⟨_, _, h, h', rfl, rfl, hfind, hwhole, hfind', heq.2 (by decide)⟩

end World

end SpriteCanvas
