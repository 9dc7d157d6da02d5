import SpriteCanvas.Cast.Record
import SpriteCanvas.Proofs.Doubles
import SpriteCanvas.Proofs.Reading

/-!
# Canvas and headings

Clamping gives coordinates from 0 to 100 and wrapping gives angles from 0 to below 360, whatever
doubles go in (`Point.onCanvas_clamped`, `Heading.wrapped_ofDegrees`).  A figure moves and turns,
and a snapshot is read from a text, through these two alone, so neither ever leaves the canvas
(`Figure.Placed`, `Snapshot.placed_of_readWhole`).
-/

namespace SpriteCanvas

/-! ## Points and headings -/

/-- Both coordinates are numbers from 0 to 100. -/
def Point.OnCanvas (p : Point) : Prop := (0 ≤ p.x ∧ p.x ≤ 100) ∧ 0 ≤ p.y ∧ p.y ≤ 100

/-- The angle is a number from 0 to below 360. -/
def Heading.Wrapped (h : Heading) : Prop := 0 ≤ h.degrees ∧ h.degrees < 360

theorem isNaN_zero : (0 : Float).isNaN = false := rfl

theorem isNaN_100 : (100 : Float).isNaN = false := rfl

theorem isNaN_360 : (360 : Float).isNaN = false := rfl

/-- Whatever it is given, clamping gives a number from 0 to 100. -/
theorem clampAxis_mem (x : Float) : 0 ≤ clampAxis x ∧ clampAxis x ≤ 100 := by
  unfold clampAxis
  split
  · exact ⟨by rfl, by rfl⟩
  · rename_i hn
    have hx : x.isNaN = false := Bool.eq_false_iff.2 hn
    split
    · exact ⟨by rfl, by rfl⟩
    · rename_i hlt
      split
      · exact ⟨by rfl, by rfl⟩
      · rename_i hgt
        exact ⟨Binary64.le_of_not_lt isNaN_zero hx hlt, Binary64.le_of_not_lt hx isNaN_100 hgt⟩

theorem Point.onCanvas_clamped (x y : Float) : (clamped x y).OnCanvas :=
  ⟨clampAxis_mem x, clampAxis_mem y⟩

/-- A remainder is moved up by a turn if it is negative, and never below zero. -/
theorem Heading.nonneg_wrap {x : Float} (hx : x.isFinite = true) : 0 ≤ wrap x := by
  unfold wrap
  dsimp only
  split
  · exact Binary64.nonneg_remainder_add hx
  · rename_i h
    exact Binary64.le_of_not_lt isNaN_zero (Binary64.isNaN_remainder hx) h

theorem Heading.wrapped_zero : zero.Wrapped := by
  rw [Wrapped]
  exact ⟨by rfl, by rfl⟩

theorem Heading.wrapped_ofDegrees (x : Float) : (ofDegrees x).Wrapped := by
  unfold ofDegrees
  split
  · rename_i hx
    have h0 := nonneg_wrap hx
    dsimp only
    split
    · exact wrapped_zero
    · rename_i h
      exact ⟨h0, Binary64.lt_of_not_le (Binary64.isNaN_eq_false_of_le h0) isNaN_360 h⟩
  · exact wrapped_zero

theorem Heading.Wrapped.turned {h : Heading} (hw : h.Wrapped) (delta : Float) :
    (h.turned delta).Wrapped := by
  unfold Heading.turned
  split
  · exact wrapped_ofDegrees _
  · exact hw

/-! ## Figures and snapshots -/

/-- A figure is on the canvas and its heading within one turn. -/
structure Figure.Placed (f : Figure) : Prop where
  position : f.position.OnCanvas
  heading : f.heading.Wrapped

/-- A snapshot shows a figure on the canvas with its heading within one turn. -/
structure Snapshot.Placed (s : Snapshot) : Prop where
  position : s.position.OnCanvas
  heading : s.heading.Wrapped

namespace Figure

variable {f g : Figure}

theorem placed_new {p : Point} (hp : p.OnCanvas) : (Figure.new p).Placed :=
  ⟨hp, Heading.wrapped_zero⟩

theorem Placed.snapshot (h : f.Placed) : f.snapshot.Placed := ⟨h.position, h.heading⟩

theorem Placed.walk (h : f.Placed) (steps : Float) : (f.walk steps).Placed := by
  unfold Figure.walk
  split
  · exact ⟨Point.onCanvas_clamped _ _, h.heading⟩
  · exact h

theorem Placed.turn (h : f.Placed) (degrees : Float) : (f.turn degrees).Placed :=
  ⟨h.position, h.heading.turned degrees⟩

theorem Placed.goTo (h : f.Placed) (x y : Float) : (f.goTo x y).Placed :=
  ⟨Point.onCanvas_clamped _ _, h.heading⟩

theorem Placed.of_eq (h : f.Placed) (hp : g.position = f.position) (hh : g.heading = f.heading) :
    g.Placed :=
  ⟨hp ▸ h.position, hh ▸ h.heading⟩

end Figure

/-! ## Snapshots from texts -/

theorem Point.onCanvas_of_read {depth : Nat} {cs rest : List Char} {p : Point}
    (h : Point.read depth cs = .ok (p, rest)) : p.OnCanvas := by
  obtain ⟨q, -, rfl⟩ := Json.mapRead_eq_ok.1 h
  exact onCanvas_clamped q.x q.y

theorem Heading.wrapped_of_read {depth : Nat} {cs rest : List Char} {x : Heading}
    (h : Heading.read depth cs = .ok (x, rest)) : x.Wrapped := by
  obtain ⟨degrees, -, rfl⟩ := Json.mapRead_eq_ok.1 h
  exact wrapped_ofDegrees degrees

namespace Snapshot

/-- A position and a heading come through their readers, and the other fields touch neither. -/
theorem keeps_placed (depth : Nat) : Json.Shape.Keeps shape.fields depth Snapshot.Placed := by
  intro f hf cs put rest h s hs
  simp only [shape, List.mem_cons, List.not_mem_nil, or_false] at hf
  rcases hf with rfl | rfl | rfl | rfl | rfl | rfl
  · obtain ⟨p, hp, rfl⟩ := Json.mapRead_eq_ok.1 h
    exact ⟨Point.onCanvas_of_read hp, hs.heading⟩
  · obtain ⟨x, hx, rfl⟩ := Json.mapRead_eq_ok.1 h
    exact ⟨hs.position, Heading.wrapped_of_read hx⟩
  all_goals
    obtain ⟨_, -, rfl⟩ := Json.mapRead_eq_ok.1 h
    exact ⟨hs.position, hs.heading⟩

/-- Whatever text is accepted as a snapshot, the snapshot is in place. -/
theorem placed_of_readWhole {text : String} {s : Snapshot} {depth : Nat}
    (h : Json.readWhole (read depth) text = .ok s) : s.Placed := by
  obtain ⟨rest, h, -⟩ := Json.readWhole_eq_ok.1 h
  exact Json.readRecord_keeps (keeps_placed _)
    (Figure.placed_new (Point.onCanvas_clamped 50 50)).snapshot h

end Snapshot

end SpriteCanvas
