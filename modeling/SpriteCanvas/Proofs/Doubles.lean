import Mathlib
import SpriteCanvas.Binary64

/-!
# Doubles taken apart

What a double is after it was packed: its sign is kept (`sign?_unpack_pack`), and a whole number of
at most 53 bits times a power of two in range comes back as it was (`unpack_ofDyadic`).  The order
of doubles is total but for what is not a number (`le_of_not_lt`), and the remainder by a whole
number lies between its negative and itself (`nonneg_remainder_add`).
-/

namespace SpriteCanvas.Binary64

open Float.Model
open Float.Model.UnpackedFloat (Sign packComponents unpackExponent_packComponents
  unpackMantissa_packComponents unpackSign_packComponents packedInfinity unpack_packedNaN
  unpack_packedZero roundWithAccuracy decreaseExponent shiftToTargetExponent shiftToExponent
  ExtendedMantissa)

/-! ## Signs -/

/-- The sign of a double that is a number. -/
def sign? : UnpackedFloat → Option Sign
  | .notANumber => none
  | .infinity s | .zero s | .finite s _ _ _ => some s

/-- What is packed as finite has an exponent below that of the infinities. -/
theorem ofNat_exponent_ne {n : Nat} (h : ¬ 2 ^ Format.binary64.exponentBits ≤ n + 1) :
    BitVec.ofNat Format.binary64.exponentBits n ≠ -1#_ := by
  intro he
  have := congrArg BitVec.toNat he
  simp only [BitVec.toNat_ofNat, Nat.reducePow, BitVec.reduceNeg, Nat.mod_succ, Nat.reduceLeDiff,
    not_le] at this h
  omega

theorem sign?_packComponents (s : Sign) (e : BitVec Format.binary64.exponentBits)
    (m : BitVec Format.binary64.mantissaBitsWithoutImplicit) (h : e ≠ -1#_ ∨ m = 0#_) :
    sign? (UnpackedFloat.unpack Format.binary64 (packComponents Format.binary64 s e m))
      = some s := by
  simp only [UnpackedFloat.unpack, unpackExponent_packComponents, unpackMantissa_packComponents,
    unpackSign_packComponents, Sign.ofBitVec_toBitVec]
  split_ifs with he hm
  · rfl
  · exact absurd h (by simp [he, hm])
  · rfl
  · rfl
  · rfl

theorem sign?_unpack_pack (f : UnpackedFloat) :
    sign? (UnpackedFloat.unpack Format.binary64 (f.pack Format.binary64)) = sign? f := by
  fun_cases UnpackedFloat.pack with
  | case1 => rw [unpack_packedNaN]
  | case2 s => exact sign?_packComponents s _ _ (.inr rfl)
  | case3 s => rw [unpack_packedZero]
  | case4 s m e hm b h => exact sign?_packComponents s _ _ (.inr rfl)
  | case5 s m e hm l b h hn => exact sign?_packComponents s _ _ (.inl (ofNat_exponent_ne h))
  | case6 s m e hm l b h hn => exact sign?_packComponents s _ _ (.inl (by decide))

theorem sign?_round (s : Sign) (m : Nat) (e : Int) :
    sign? (UnpackedFloat.round Format.binary64 s m e) = some s := by
  simp only [UnpackedFloat.round, roundWithAccuracy]
  split <;> rfl

theorem sign?_normalize {m : Int} (h : 0 ≤ m) (e : Int) :
    sign? (UnpackedFloat.normalize Format.binary64 m e .positive) = some .positive := by
  unfold UnpackedFloat.normalize
  split
  · rename_i hlt
    rw [Int.compare_eq_lt] at hlt
    omega
  · rfl
  · exact sign?_round ..

/-! ## Order -/

theorem le_iff {x y : Float} : x ≤ y ↔ (x.toModel.unpack).le y.toModel.unpack = true :=
  decide_eq_true_iff

theorem lt_iff {x y : Float} : x < y ↔ (x.toModel.unpack).lt y.toModel.unpack = true :=
  decide_eq_true_iff

theorem unpack_zero : (0 : Float).toModel.unpack = .zero .positive := rfl

theorem zero_le_of_sign {x : Float} (h : sign? x.toModel.unpack = some .positive) : 0 ≤ x := by
  rw [le_iff, unpack_zero]
  rcases hx : x.toModel.unpack with s | _ | s | ⟨s, m, e, hm⟩ <;> rw [hx] at h <;> cases h <;> rfl

/-- Two doubles compare one way as they compare the other way. -/
theorem compare_swap (a b : UnpackedFloat) : b.compare a = (a.compare b).map Ordering.swap := by
  have hsign : ∀ s t : Sign, compare t s = (compare s t).swap := by
    rintro (_ | _) (_ | _) <;> rfl
  have hfinite : ∀ (m n : Nat) (e f : Int),
      (compare f e).then (compare n m) = ((compare e f).then (compare m n)).swap := by
    intro m n e f
    rw [Ordering.swap_then, ← Std.OrientedCmp.eq_swap, ← Std.OrientedCmp.eq_swap]
  rcases a with s | _ | s | ⟨s, m, e, hm⟩ <;> rcases b with t | _ | t | ⟨t, n, f, hn⟩
  case infinity.infinity => exact congrArg some (hsign s t)
  case finite.finite =>
    cases s <;> cases t
    · exact congrArg some (congrArg Ordering.swap (hfinite m n e f))
    · rfl
    · rfl
    · exact congrArg some (hfinite m n e f)
  all_goals first | rfl | (cases s; all_goals rfl) | (cases t; all_goals rfl)

theorem isSome_compare {a b : UnpackedFloat} (ha : a.isNaN = false) (hb : b.isNaN = false) :
    (a.compare b).isSome := by
  fun_cases UnpackedFloat.compare a b
  case case1 => cases ha
  case case2 => cases hb
  all_goals rfl

theorem le_of_not_lt {x y : Float} (hx : x.isNaN = false) (hy : y.isNaN = false) (h : ¬ y < x) :
    x ≤ y := by
  obtain ⟨o, ho⟩ := Option.isSome_iff_exists.1
    (isSome_compare (a := x.toModel.unpack) (b := y.toModel.unpack) hx hy)
  rw [lt_iff, UnpackedFloat.lt, compare_swap, ho] at h
  rw [le_iff, UnpackedFloat.le, ho]
  cases o
  · rfl
  · rfl
  · exact absurd rfl h

theorem lt_of_not_le {x y : Float} (hx : x.isNaN = false) (hy : y.isNaN = false) (h : ¬ y ≤ x) :
    x < y := by
  obtain ⟨o, ho⟩ := Option.isSome_iff_exists.1
    (isSome_compare (a := x.toModel.unpack) (b := y.toModel.unpack) hx hy)
  rw [le_iff, UnpackedFloat.le, compare_swap, ho] at h
  rw [lt_iff, UnpackedFloat.lt, ho]
  cases o
  · rfl
  · exact absurd rfl h
  · exact absurd rfl h

theorem isNaN_eq_false_of_le {x y : Float} (h : x ≤ y) : y.isNaN = false := by
  rw [le_iff, UnpackedFloat.le] at h
  rcases hy : y.toModel.unpack with s | _ | s | ⟨s, m, e, hm⟩
  case notANumber =>
    rw [hy] at h
    cases hx : x.toModel.unpack <;> rw [hx] at h <;> cases h
  all_goals
    show y.toModel.unpack.isNaN = false
    rw [hy]
    rfl

/-! ## Canonical forms -/

/-- A significand and an exponent as doubles have them. -/
structure Canonical (m : Nat) (e : Int) : Prop where
  pos : 0 < m
  lt : m < 2 ^ 53
  le : -1074 ≤ e
  full : 2 ^ 52 ≤ m ∨ e = -1074

theorem toNat_implicit (m : BitVec 52) : (1#1 ++ m).toNat = 2 ^ 52 + m.toNat := by
  rw [BitVec.toNat_append, ← Nat.shiftLeft_add_eq_or_of_lt m.isLt]
  rfl

/-- The first bit of a normal significand is left out and comes back. -/
theorem unpack_normal {m b : Nat} (hm : 2 ^ 52 ≤ m) (hlt : m < 2 ^ 53) (hb : 0 < b)
    (hb' : b < 2047) (s : Sign) :
    UnpackedFloat.unpack Format.binary64
        (packComponents Format.binary64 s (.ofNat _ b) (.ofNat _ m))
      = .finite s m (b - 1075) (Nat.lt_of_lt_of_le (by decide) hm) := by
  have hexponent : (BitVec.ofNat Format.binary64.exponentBits b).toNat = b := by
    rw [BitVec.toNat_ofNat]
    exact Nat.mod_eq_of_lt (Nat.lt_trans hb' (by decide))
  have hinf : BitVec.ofNat Format.binary64.exponentBits b ≠ -1#_ := fun h =>
    Nat.ne_of_lt hb' (hexponent.symm.trans (congrArg BitVec.toNat h))
  have hzero : BitVec.ofNat Format.binary64.exponentBits b ≠ 0#_ := fun h =>
    Nat.ne_of_gt hb (hexponent.symm.trans (congrArg BitVec.toNat h))
  have hmantissa : (1#1 ++ BitVec.ofNat Format.binary64.mantissaBitsWithoutImplicit m).toNat
      = m := by
    refine (toNat_implicit (.ofNat 52 m)).trans ?_
    rw [BitVec.toNat_ofNat]
    omega
  simp only [UnpackedFloat.unpack, unpackExponent_packComponents, unpackMantissa_packComponents,
    unpackSign_packComponents, Sign.ofBitVec_toBitVec, if_neg hinf, if_neg hzero, hmantissa,
    hexponent]
  rfl

/-- A subnormal significand is packed as it is. -/
theorem unpack_subnormal {m : Nat} (hpos : 0 < m) (hm : m < 2 ^ 52) (s : Sign) :
    UnpackedFloat.unpack Format.binary64 (packComponents Format.binary64 s 0#_ (.ofNat _ m))
      = .finite s m (-1074) hpos := by
  have hmantissa : (BitVec.ofNat Format.binary64.mantissaBitsWithoutImplicit m).toNat = m := by
    rw [BitVec.toNat_ofNat]
    exact Nat.mod_eq_of_lt hm
  have hzero : BitVec.ofNat Format.binary64.mantissaBitsWithoutImplicit m ≠ 0#_ := fun h =>
    hpos.ne' (hmantissa.symm.trans (congrArg BitVec.toNat h))
  simp only [UnpackedFloat.unpack, unpackExponent_packComponents, unpackMantissa_packComponents,
    unpackSign_packComponents, Sign.ofBitVec_toBitVec]
  rw [if_neg (by decide), if_pos (by decide), dif_neg hzero]
  simp only [hmantissa]
  rfl

/-- A canonical finite double is packed without loss, unless it overflows. -/
theorem unpack_pack {m : Nat} {e : Int} (h : Canonical m e) (he : e ≤ 971) (s : Sign) :
    UnpackedFloat.unpack Format.binary64 ((UnpackedFloat.finite s m e h.pos).pack Format.binary64)
      = .finite s m e h.pos := by
  obtain ⟨hpos, hlt, hle, hfull⟩ := h
  have hbias : e + Format.binary64.exponentBias
      + (Format.binary64.mantissaBitsWithoutImplicit : Int) = e + 1075 := Int.add_assoc e 1023 52
  have hb : ¬ 2 ^ Format.binary64.exponentBits ≤ (e + 1075).toNat + 1 := by
    show ¬ 2048 ≤ _
    omega
  have hlog : m.log2 + 1 = Format.binary64.mantissaBits ↔ 2 ^ 52 ≤ m := by
    have hl : m.log2 < 53 := (Nat.log2_lt hpos.ne').2 hlt
    rw [← Nat.le_log2 (k := 52) hpos.ne']
    show _ = 53 ↔ _
    omega
  simp only [UnpackedFloat.pack, hbias, if_neg hb, hlog]
  split
  · rename_i hn
    rw [unpack_normal hn hlt (by omega) (by omega) s]
    congr 1
    omega
  · rename_i hn
    rw [unpack_subnormal hpos (Nat.lt_of_not_le hn) s]
    congr 1
    omega

/-! ## Rounding nothing -/

/-- The exponent that a double has of the size of `m * 2 ^ e`. -/
def fitted (m : Nat) (e : Int) : Int := max (m.log2 + e - 52) (-1074)

theorem target_eq (m : Nat) (e : Int) :
    Format.binary64.targetExponent (totalExponent m e) = fitted m e := by
  simp only [Format.targetExponent, totalExponent, fitted, Format.mantissaBits, Format.minExponent]
  omega

/-- Nothing is shifted out of a canonical significand. -/
theorem shift_canonical {m : Nat} {e : Int} (h : fitted m e ≤ e) :
    shiftToTargetExponent Format.binary64 m e .exact = (⟨m, false, false⟩, e) := by
  have h0 : (fitted m e - e).toNat = 0 := by omega
  simp only [shiftToTargetExponent, target_eq, shiftToExponent, h0]
  simp
  rfl

theorem fitted_le {m : Nat} {e : Int} (hm : m < 2 ^ 53) (he : -1074 ≤ e) : fitted m e ≤ e := by
  have : m.log2 ≤ 52 := by
    rcases Nat.eq_zero_or_pos m with rfl | hpos
    · simp
    · exact Nat.lt_succ_iff.1 ((Nat.log2_lt hpos.ne').2 hm)
  unfold fitted
  omega

theorem log2_mul_two_pow {m : Nat} (hm : 0 < m) (k : Nat) : (m * 2 ^ k).log2 = m.log2 + k := by
  induction k with
  | zero => simp
  | succ k ih =>
    rw [pow_succ', Nat.mul_left_comm, Nat.log2_two_mul (by positivity), ih, Nat.add_assoc]

theorem fitted_shift {m : Nat} (hm : 0 < m) {e : Int} (h : fitted m e ≤ e) :
    fitted (m * 2 ^ (e - fitted m e).toNat) (fitted m e) = fitted m e := by
  have hdef : fitted m e = max (m.log2 + e - 52) (-1074) := rfl
  rw [fitted, log2_mul_two_pow hm]
  omega

theorem canonical_shift {m : Nat} (hpos : 0 < m) (hm : m < 2 ^ 53) {e : Int} (he : -1074 ≤ e) :
    Canonical (m * 2 ^ (e - fitted m e).toNat) (fitted m e) := by
  have hle := fitted_le hm he
  have hdef : fitted m e = max (m.log2 + e - 52) (-1074) := rfl
  have hlog := log2_mul_two_pow hpos (e - fitted m e).toNat
  have hpos' : 0 < m * 2 ^ (e - fitted m e).toNat := by positivity
  refine ⟨hpos', (Nat.log2_lt hpos'.ne').1 (by omega), by omega, ?_⟩
  rw [← Nat.le_log2 hpos'.ne']
  omega

theorem round_exact {m : Nat} (hpos : 0 < m) (hm : m < 2 ^ 53) {e : Int} (he : -1074 ≤ e)
    (s : Sign) : UnpackedFloat.round Format.binary64 s m e
      = .finite s (m * 2 ^ (e - fitted m e).toNat) (fitted m e)
          (canonical_shift hpos hm he).pos := by
  have hle := fitted_le hm he
  have hshift : decreaseExponent m e (fitted m e)
      = (m * 2 ^ (e - fitted m e).toNat, fitted m e) := by
    simp only [decreaseExponent, Nat.shiftLeft_eq]
    congr 1
    omega
  have hsame := shift_canonical (fitted_shift hpos hle).le
  have hround : (⟨m * 2 ^ (e - fitted m e).toNat, false, false⟩ : ExtendedMantissa).roundedMantissa
      = m * 2 ^ (e - fitted m e).toNat := rfl
  simp only [UnpackedFloat.round, target_eq, hshift, roundWithAccuracy, hsame, hround]
  exact dif_neg (canonical_shift hpos hm he).pos.ne'

/-- A whole number with a sign is rounded as its magnitude. -/
theorem normalize_apply {m : Nat} (hpos : 0 < m) (e : Int) (s z : Sign) :
    UnpackedFloat.normalize Format.binary64 (s.apply m) e z
      = UnpackedFloat.round Format.binary64 s m e := by
  unfold UnpackedFloat.normalize
  cases s with
  | negative =>
    have hc : compare (Sign.negative.apply m) 0 = .lt := by
      rw [Int.compare_eq_lt]
      show -(m : Int) < 0
      omega
    rw [hc]
    show UnpackedFloat.round Format.binary64 .negative (- -(m : Int)).toNat e = _
    rw [Int.neg_neg, Int.toNat_natCast]
  | positive =>
    have hc : compare (Sign.positive.apply m) 0 = .gt := by
      rw [Int.compare_eq_gt]
      show 0 < (m : Int)
      omega
    rw [hc]
    rfl

theorem unpack_ofDyadic {m : Nat} (hpos : 0 < m) (hm : m < 2 ^ 53) {e : Int} (he : -1074 ≤ e)
    (he' : e ≤ 971) (s z : Sign) : (ofDyadic (s.apply m) e z).toModel.unpack
      = .finite s (m * 2 ^ (e - fitted m e).toNat) (fitted m e)
          (canonical_shift hpos hm he).pos := by
  show UnpackedFloat.unpack Format.binary64
    ((UnpackedFloat.normalize Format.binary64 (s.apply m) e z).pack Format.binary64) = _
  rw [normalize_apply hpos, round_exact hpos hm he]
  exact unpack_pack (canonical_shift hpos hm he) (Int.le_trans (fitted_le hm he) he') s

theorem unpack_ofDyadic_zero (e : Int) (s z : Sign) :
    (ofDyadic (s.apply (0 : Nat)) e z).toModel.unpack = .zero z := by
  cases s <;> exact unpack_packedZero

/-- A finite double has a canonical form. -/
theorem canonical_of_unpack {x : Float} {s : Sign} {m : Nat} {e : Int} {h : 0 < m}
    (hx : x.toModel.unpack = .finite s m e h) : Canonical m e ∧ e ≤ 971 := by
  simp only [Float.Model.unpack, UnpackedFloat.unpack, Format.exponentBias] at hx
  split_ifs at hx with h1 h2 h0 hz
  · injection hx with _ hm he
    have hv := (@UnpackedFloat.unpackMantissa Format.binary64 x.toModel.toBits.toBitVec).isLt
    simp only [h0] at he
    subst hm he
    exact ⟨⟨h, Nat.lt_trans hv (by decide), by decide, .inr (by decide)⟩, by decide⟩
  · injection hx with _ hm he
    have hv := (@UnpackedFloat.unpackMantissa Format.binary64 x.toModel.toBits.toBitVec).isLt
    have hb := (@UnpackedFloat.unpackExponent Format.binary64 x.toModel.toBits.toBitVec).isLt
    have hb1 := fun hb => h1 (BitVec.eq_of_toNat_eq hb)
    have hb0 := fun hb => h0 (BitVec.eq_of_toNat_eq hb)
    rw [toNat_implicit] at hm
    simp only [Nat.reducePow, BitVec.reduceNeg, BitVec.toNat_ofNat, Nat.mod_succ, imp_false,
      Nat.zero_mod, Nat.add_one_sub_one, Nat.cast_ofNat, Int.reduceAdd] at hv hb hb1 hb0 he
    exact ⟨⟨h, by omega, by omega, .inl (by omega)⟩, by omega⟩

/-! ## Remainders -/

theorem unpack_360 : (360 : Float).toModel.unpack
    = .finite .positive (360 * 2 ^ 44) (-44) (by decide) := rfl

/-- The remainder of a finite double by 360 is less than 360. -/
theorem exists_remainder {x : Float} (hx : x.isFinite = true) :
    ∃ (s : Sign) (m : Nat) (e : Int), m < 2 ^ 53 ∧ -1074 ≤ e ∧ e ≤ 0 ∧ m < 360 * 2 ^ (-e).toNat
      ∧ (remainder x 360).toModel.unpack = (ofDyadic (s.apply m) e s).toModel.unpack := by
  have hfinite : x.toModel.unpack.isFinite = true := hx
  rcases hu : x.toModel.unpack with s | _ | s | ⟨s, m, e, hpos⟩
  case infinity =>
    rw [hu] at hfinite
    cases hfinite
  case notANumber =>
    rw [hu] at hfinite
    cases hfinite
  case zero =>
    refine ⟨s, 0, 0, by decide, by decide, by decide, by decide, ?_⟩
    rw [unpack_ofDyadic_zero]
    simp only [remainder, hu]
  case finite =>
    obtain ⟨⟨-, hm, he, -⟩, -⟩ := canonical_of_unpack hu
    by_cases h0 : 0 ≤ e
    · have hr : remainder x 360 = ofDyadic (s.apply (m * 2 ^ e.toNat % 360 : Nat)) 0 s := by
        simp only [remainder, hu, if_pos h0]
        push_cast
        rfl
      have hlt : m * 2 ^ e.toNat % 360 < 360 := Nat.mod_lt _ (by decide)
      exact ⟨s, _, 0, Nat.lt_trans hlt (by decide), by decide, Int.le_refl 0, hlt, by rw [hr]⟩
    · have hr : remainder x 360
          = ofDyadic (s.apply (m % (360 * 2 ^ (-e).toNat) : Nat)) e s := by
        simp only [remainder, hu, if_neg h0]
        push_cast
        rfl
      have hlt : m % (360 * 2 ^ (-e).toNat) < 360 * 2 ^ (-e).toNat := Nat.mod_lt _ (by positivity)
      exact ⟨s, _, e, Nat.lt_of_le_of_lt (Nat.mod_le _ _) hm, he, by omega, hlt, by rw [hr]⟩

/-- What is less than 360 stays so when it is written with another exponent. -/
theorem shifted_le {m : Nat} {e : Int} (hf : fitted m e ≤ e) (he : e ≤ 0)
    (h : m < 360 * 2 ^ (-e).toNat) :
    (decreaseExponent (m * 2 ^ (e - fitted m e).toNat) (fitted m e) (min (fitted m e) (-44))).1
      ≤ (decreaseExponent (360 * 2 ^ 44) (-44) (min (fitted m e) (-44))).1 := by
  generalize fitted m e = f at *
  simp only [decreaseExponent, Nat.shiftLeft_eq, Nat.mul_assoc, ← Nat.pow_add]
  calc m * 2 ^ ((e - f).toNat + (f - min f (-44)).toNat)
      ≤ 360 * 2 ^ (-e).toNat * 2 ^ ((e - f).toNat + (f - min f (-44)).toNat) :=
        Nat.mul_le_mul_right _ h.le
    _ = 360 * 2 ^ (44 + (-44 - min f (-44)).toNat) := by
        rw [Nat.mul_assoc, ← Nat.pow_add]
        congr 2
        omega

/-- Adding 360 to a remainder by 360 gives nothing negative. -/
theorem nonneg_remainder_add {x : Float} (hx : x.isFinite = true) :
    0 ≤ remainder x 360 + 360 := by
  apply zero_le_of_sign
  show sign? (UnpackedFloat.unpack Format.binary64 ((UnpackedFloat.add Format.binary64
    (remainder x 360).toModel.unpack (360 : Float).toModel.unpack).pack Format.binary64)) = _
  rw [sign?_unpack_pack, unpack_360]
  obtain ⟨s, m, e, hm, he, he0, hlt, hr⟩ := exists_remainder hx
  rw [hr]
  rcases Nat.eq_zero_or_pos m with rfl | hpos
  · rw [unpack_ofDyadic_zero]
    rfl
  · rw [unpack_ofDyadic hpos hm he (by omega)]
    simp only [UnpackedFloat.add]
    refine sign?_normalize ?_ _
    have hle := shifted_le (fitted_le hm he) he0 hlt
    cases s with
    | negative =>
      show 0 ≤ -((decreaseExponent _ _ _).1 : Int) + ((decreaseExponent _ _ _).1 : Int)
      omega
    | positive => exact Int.add_nonneg (Int.natCast_nonneg _) (Int.natCast_nonneg _)

theorem isNaN_remainder {x : Float} (hx : x.isFinite = true) : (remainder x 360).isNaN = false := by
  obtain ⟨s, m, e, hm, he, he0, hlt, hr⟩ := exists_remainder hx
  show (remainder x 360).toModel.unpack.isNaN = false
  rw [hr]
  rcases Nat.eq_zero_or_pos m with rfl | hpos
  · rw [unpack_ofDyadic_zero]
    rfl
  · rw [unpack_ofDyadic hpos hm he (by omega)]
    rfl

end SpriteCanvas.Binary64
