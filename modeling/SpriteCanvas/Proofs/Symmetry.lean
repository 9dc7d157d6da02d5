import SpriteCanvas.Proofs.Doubles
import SpriteCanvas.Proximity.Scan

/-!
# Distances are symmetric

A difference the other way round has the other sign and is else the same (`Binary64.unsigned_sub`),
and a distance takes no notice of signs.  So points touch each other or neither the other
(`Detector.touches_comm`).
-/

namespace SpriteCanvas

namespace Binary64

open Float.Model
open Float.Model.UnpackedFloat (Sign packComponents unpackExponent_packComponents
  unpackMantissa_packComponents unpackSign_packComponents roundWithAccuracy unpack_packedNaN)

/-- A double but for its sign. -/
def unsigned : UnpackedFloat → UnpackedFloat
  | .notANumber => .notANumber
  | .infinity _ => .infinity .positive
  | .zero _ => .zero .positive
  | .finite _ m e h => .finite .positive m e h

theorem unsigned_round (s t : Sign) (m : Nat) (e : Int) :
    unsigned (UnpackedFloat.round Format.binary64 s m e)
      = unsigned (UnpackedFloat.round Format.binary64 t m e) := by
  simp only [UnpackedFloat.round, roundWithAccuracy]
  split <;> rfl

theorem unsigned_normalize_neg (m e : Int) (s t : Sign) :
    unsigned (UnpackedFloat.normalize Format.binary64 (-m) e s)
      = unsigned (UnpackedFloat.normalize Format.binary64 m e t) := by
  have hlt : ∀ (n : Int) (u : Sign), n < 0 → UnpackedFloat.normalize Format.binary64 n e u
      = UnpackedFloat.round Format.binary64 .negative (-n).toNat e := by
    intro n u hn
    rw [UnpackedFloat.normalize, Int.compare_eq_lt.2 hn]
  have hgt : ∀ (n : Int) (u : Sign), 0 < n → UnpackedFloat.normalize Format.binary64 n e u
      = UnpackedFloat.round Format.binary64 .positive n.toNat e := by
    intro n u hn
    rw [UnpackedFloat.normalize, Int.compare_eq_gt.2 hn]
  rcases Int.lt_trichotomy m 0 with h | rfl | h
  · rw [hgt _ s (by omega), hlt _ t h]
    exact unsigned_round ..
  · rfl
  · rw [hlt _ s (by omega), hgt _ t h, Int.neg_neg]
    exact unsigned_round ..

theorem unsigned_sub (a b : UnpackedFloat) :
    unsigned (UnpackedFloat.sub Format.binary64 a b)
      = unsigned (UnpackedFloat.sub Format.binary64 b a) := by
  rcases a with s | _ | s | ⟨s, m, e, hm⟩ <;> rcases b with t | _ | t | ⟨t, n, f, hn⟩
  case finite.finite =>
    simp only [UnpackedFloat.sub]
    rw [Int.min_comm f e, ← Int.neg_sub]
    exact unsigned_normalize_neg ..
  all_goals first | rfl | (cases s <;> first | rfl | (cases t <;> rfl))

theorem unsigned_unpack_packComponents (s t : Sign) (e : BitVec Format.binary64.exponentBits)
    (m : BitVec Format.binary64.mantissaBitsWithoutImplicit) :
    unsigned (UnpackedFloat.unpack Format.binary64 (packComponents Format.binary64 s e m))
      = unsigned (UnpackedFloat.unpack Format.binary64 (packComponents Format.binary64 t e m)) := by
  simp only [UnpackedFloat.unpack, unpackExponent_packComponents, unpackMantissa_packComponents,
    unpackSign_packComponents, Sign.ofBitVec_toBitVec]
  split_ifs <;> rfl

/-- Packing takes no notice of signs. -/
theorem unsigned_unpack_pack (a : UnpackedFloat) :
    unsigned (UnpackedFloat.unpack Format.binary64 (a.pack Format.binary64))
      = unsigned (UnpackedFloat.unpack Format.binary64 ((unsigned a).pack Format.binary64)) := by
  rcases a with s | _ | s | ⟨s, m, e, hm⟩
  · exact unsigned_unpack_packComponents ..
  · rfl
  · exact unsigned_unpack_packComponents ..
  · rw [unsigned]
    simp only [UnpackedFloat.pack]
    split_ifs <;> exact unsigned_unpack_packComponents ..

theorem unsigned_sub_comm (x y : Float) :
    unsigned (x - y).toModel.unpack = unsigned (y - x).toModel.unpack := by
  show unsigned (UnpackedFloat.unpack Format.binary64 ((UnpackedFloat.sub Format.binary64
      x.toModel.unpack y.toModel.unpack).pack Format.binary64))
    = unsigned (UnpackedFloat.unpack Format.binary64 ((UnpackedFloat.sub Format.binary64
      y.toModel.unpack x.toModel.unpack).pack Format.binary64))
  rw [unsigned_unpack_pack, unsigned_sub, ← unsigned_unpack_pack]

theorem magnitude?_congr {x y : Float} (h : unsigned x.toModel.unpack = unsigned y.toModel.unpack) :
    magnitude? x = magnitude? y := by
  unfold magnitude?
  generalize x.toModel.unpack = a at h ⊢
  generalize y.toModel.unpack = b at h ⊢
  cases a <;> cases b <;> cases h <;> rfl

theorem isInf_congr {x y : Float} (h : unsigned x.toModel.unpack = unsigned y.toModel.unpack) :
    x.isInf = y.isInf := by
  show x.toModel.unpack.isInf = y.toModel.unpack.isInf
  generalize x.toModel.unpack = a at h ⊢
  generalize y.toModel.unpack = b at h ⊢
  cases a <;> cases b <;> cases h <;> rfl

/-- A distance takes no notice of signs. -/
theorem hypot_congr {x x' y y' : Float}
    (hx : unsigned x.toModel.unpack = unsigned x'.toModel.unpack)
    (hy : unsigned y.toModel.unpack = unsigned y'.toModel.unpack) : hypot x y = hypot x' y' := by
  rw [hypot, hypot, magnitude?_congr hx, magnitude?_congr hy, isInf_congr hx, isInf_congr hy]

end Binary64

theorem Point.distance_comm (p q : Point) : p.distance q = q.distance p :=
  Binary64.hypot_congr (Binary64.unsigned_sub_comm p.x q.x) (Binary64.unsigned_sub_comm p.y q.y)

theorem Detector.touches_comm (d : Detector) (p q : Point) : d.touches p q = d.touches q p := by
  rw [touches, touches, Point.distance_comm]

end SpriteCanvas
