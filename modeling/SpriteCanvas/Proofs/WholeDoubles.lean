import SpriteCanvas.Proofs.Doubles
import SpriteCanvas.Script.Parameter

/-!
# Whole numbers as doubles

A whole number of at most 53 bits is a double of the same value (`unpack_ofNat`), so a 32-bit count
comes back from it (`Parameter.count_ofInt`).  Every 64-bit word is near a finite double
(`isFinite_ofInt`).
-/

namespace SpriteCanvas

namespace Binary64

open Float.Model
open Float.Model.UnpackedFloat (Sign packComponents unpackExponent_packComponents
  unpackMantissa_packComponents unpackSign_packComponents packedInfinity unpack_packedNaN
  unpack_packedZero roundWithAccuracy decreaseExponent shiftToTargetExponent shiftToExponent
  ExtendedMantissa)

/-! ## Finite doubles -/

theorem isFinite_packComponents (s : Sign) (e : BitVec Format.binary64.exponentBits)
    (m : BitVec Format.binary64.mantissaBitsWithoutImplicit) (h : e ≠ -1#_) :
    (UnpackedFloat.unpack Format.binary64 (packComponents Format.binary64 s e m)).isFinite
      = true := by
  simp only [UnpackedFloat.unpack, unpackExponent_packComponents, unpackMantissa_packComponents,
    unpackSign_packComponents, if_neg h]
  split_ifs <;> rfl

/-- What is packed with an exponent in range is finite. -/
theorem isFinite_unpack_pack {s : Sign} {m : Nat} {e : Int} {h : 0 < m} (he : e ≤ 971) :
    (UnpackedFloat.unpack Format.binary64
      ((UnpackedFloat.finite s m e h).pack Format.binary64)).isFinite = true := by
  have hb : ¬ 2 ^ Format.binary64.exponentBits
      ≤ (e + Format.binary64.exponentBias
        + (Format.binary64.mantissaBitsWithoutImplicit : Int)).toNat + 1 := by
    show ¬ 2048 ≤ (e + 1023 + 52).toNat + 1
    omega
  simp only [UnpackedFloat.pack, if_neg hb]
  split
  · exact isFinite_packComponents s _ _ (ofNat_exponent_ne hb)
  · exact isFinite_packComponents s _ _ (by decide)

/-- Rounding adds at most one to a significand. -/
theorem roundedMantissa_le (em : ExtendedMantissa) : em.roundedMantissa ≤ em.mantissa + 1 := by
  obtain ⟨m, _ | _, _ | _⟩ := em
  · exact Nat.le_succ m
  · exact Nat.le_succ m
  · show m + m % 2 ≤ m + 1
    omega
  · exact Nat.le_refl _

theorem mantissa_shiftRight_le (em : ExtendedMantissa) (n : Nat) :
    (em >>> n).mantissa ≤ em.mantissa := by
  show (n.repeat ExtendedMantissa.shiftRightOne em).mantissa ≤ em.mantissa
  induction n with
  | zero => exact Nat.le_refl _
  | succ n ih => exact Nat.le_trans (Nat.div_le_self _ 2) ih

theorem shift_snd (m : Nat) (e : Int) :
    (shiftToTargetExponent Format.binary64 m e .exact).2 = max e (fitted m e) := by
  simp only [shiftToTargetExponent, target_eq, shiftToExponent]
  omega

theorem shift_fst_le (m : Nat) (e : Int) :
    (shiftToTargetExponent Format.binary64 m e .exact).1.mantissa ≤ m :=
  mantissa_shiftRight_le _ _

theorem fitted_le_of_lt {m k : Nat} {e : Int} (hm : m ≤ 2 ^ k) (he : -1074 ≤ e + k) :
    fitted m e ≤ e + k := by
  have hlog : m.log2 ≤ k := by
    rcases Nat.eq_zero_or_pos m with rfl | hpos
    · simp
    · exact Nat.lt_succ_iff.1 ((Nat.log2_lt hpos.ne').2 (Nat.lt_of_le_of_lt hm
        (Nat.pow_lt_pow_right (by decide) (Nat.lt_succ_self k))))
  unfold fitted
  omega

/-- What is far from overflow stays finite when it is rounded. -/
theorem isFinite_round {s : Sign} {m k : Nat} {e : Int} (hm : m < 2 ^ k) (he : -1074 ≤ e)
    (hk : e + 2 * k ≤ 971) :
    (UnpackedFloat.unpack Format.binary64
      ((roundWithAccuracy Format.binary64 s m e .exact).pack Format.binary64)).isFinite = true := by
  generalize hfirst : shiftToTargetExponent Format.binary64 m e .exact = first
  have hsnd := shift_snd m e
  have hfst := shift_fst_le m e
  rw [hfirst] at hsnd hfst
  have hfit := fitted_le_of_lt hm.le (by omega : -1074 ≤ e + k)
  have hround : first.1.roundedMantissa ≤ 2 ^ k :=
    Nat.le_trans (roundedMantissa_le first.1) (Nat.lt_of_le_of_lt hfst hm)
  have hfit' := fitted_le_of_lt hround (by omega : -1074 ≤ first.2 + k)
  have hsnd' := shift_snd first.1.roundedMantissa first.2
  simp only [roundWithAccuracy, hfirst]
  split
  · exact congrArg UnpackedFloat.isFinite unpack_packedZero
  · exact isFinite_unpack_pack (by omega)

/-! ## Whole numbers -/

theorem shiftRight_mul_two_pow (m k : Nat) :
    (⟨m * 2 ^ k, false, false⟩ : ExtendedMantissa) >>> k = ⟨m, false, false⟩ := by
  show k.repeat ExtendedMantissa.shiftRightOne ⟨m * 2 ^ k, false, false⟩ = _
  induction k generalizing m with
  | zero => simp [Nat.repeat]
  | succ k ih =>
    rw [Nat.repeat, Nat.pow_succ', ← Nat.mul_assoc, ih]
    simp [ExtendedMantissa.shiftRightOne]

theorem Canonical.fitted_eq {m : Nat} {e : Int} (h : Canonical m e) : fitted m e = e := by
  have hlt : m.log2 < 53 := (Nat.log2_lt h.pos.ne').2 h.lt
  have hle := h.le
  unfold fitted
  rcases h.full with hfull | rfl
  · have := (Nat.le_log2 h.pos.ne').2 hfull
    omega
  · omega

/-- What is shifted to a canonical form without loss is not rounded. -/
theorem roundWithAccuracy_of_shift {m n : Nat} {e f : Int} (h : Canonical n f)
    (hshift : shiftToTargetExponent Format.binary64 m e .exact = (⟨n, false, false⟩, f))
    (s : Sign) : roundWithAccuracy Format.binary64 s m e .exact = .finite s n f h.pos := by
  have hround : (⟨n, false, false⟩ : ExtendedMantissa).roundedMantissa = n := rfl
  simp only [roundWithAccuracy, hshift, hround, shift_canonical h.fitted_eq.le]
  exact dif_neg h.pos.ne'

/-- Multiplying a canonical double by one rounds nothing. -/
theorem round_mul_one {m : Nat} {e : Int} (h : Canonical m e) (s : Sign) :
    roundWithAccuracy Format.binary64 s (m * 2 ^ 52) (e + -52) .exact = .finite s m e h.pos := by
  have hfit : fitted (m * 2 ^ 52) (e + -52) = e := by
    have := h.fitted_eq
    rw [fitted] at this ⊢
    rw [log2_mul_two_pow h.pos]
    omega
  have hamount : (e - (e + -52)).toNat = 52 := by omega
  have hfirst : shiftToTargetExponent Format.binary64 (m * 2 ^ 52) (e + -52) .exact
      = (⟨m, false, false⟩, e) := by
    simp only [shiftToTargetExponent, target_eq, hfit, shiftToExponent, hamount]
    refine Prod.ext (shiftRight_mul_two_pow m 52) ?_
    show e + -52 + 52 = e
    omega
  exact roundWithAccuracy_of_shift h hfirst s

theorem unpack_one : (Float.ofBits 0x3FF0000000000000).toModel.unpack
    = .finite .positive (2 ^ 52) (-52) (by decide) := rfl

theorem toModel_toFloat {n : Nat} (hpos : 0 < n) (hn : n < 2 ^ 53) :
    n.toUInt64.toFloat.toModel = Float.Model.pack
      (.finite .positive (n * 2 ^ (0 - fitted n 0).toNat) (fitted n 0)
        (canonical_shift hpos hn (by decide)).pos) := by
  have hword : n.toUInt64.toNat = n := Nat.mod_eq_of_lt (Nat.lt_trans hn (by decide))
  show Float.Model.pack (UnpackedFloat.ofUInt64 Format.binary64 n.toUInt64) = _
  rw [UnpackedFloat.ofUInt64, UnpackedFloat.ofNat, hword]
  show Float.Model.pack (UnpackedFloat.normalize Format.binary64 (Sign.positive.apply n) 0
    .positive) = _
  rw [normalize_apply hpos, round_exact hpos hn (by decide)]

theorem unpack_toFloat {n : Nat} (hpos : 0 < n) (hn : n < 2 ^ 53) :
    n.toUInt64.toFloat.toModel.unpack
      = .finite .positive (n * 2 ^ (0 - fitted n 0).toNat) (fitted n 0)
          (canonical_shift hpos hn (by decide)).pos := by
  rw [toModel_toFloat hpos hn]
  exact unpack_pack (canonical_shift hpos hn (by decide))
    (Int.le_trans (fitted_le hn (by decide)) (by decide)) .positive

/-- A whole number of at most 53 bits is converted as a word: the factor one rounds nothing. -/
theorem ofNat_eq_toFloat {n : Nat} (hn : n < 2 ^ 53) : Float.ofNat n = n.toUInt64.toFloat := by
  rcases Nat.eq_zero_or_pos n with rfl | hpos
  · decide +kernel
  · have hproduct : (Float.ofNat n).toModel = Float.Model.pack (UnpackedFloat.mul Format.binary64
        n.toUInt64.toFloat.toModel.unpack (Float.ofBits 0x3FF0000000000000).toModel.unpack) := by
      show (Float.ofScientific n false 0).toModel = _
      rw [Float.ofScientific, dif_pos ⟨hn, by decide⟩]
      rfl
    have hmodel : (Float.ofNat n).toModel = n.toUInt64.toFloat.toModel := by
      rw [hproduct, unpack_toFloat hpos hn, unpack_one, toModel_toFloat hpos hn]
      show Float.Model.pack (roundWithAccuracy Format.binary64 .positive
        (n * 2 ^ (0 - fitted n 0).toNat * 2 ^ 52) (fitted n 0 + -52) .exact) = _
      rw [round_mul_one (canonical_shift hpos hn (by decide))]
    exact congrArg Float.ofModel hmodel

/-- A whole number of at most 53 bits is a double. -/
theorem unpack_ofNat {n : Nat} (hpos : 0 < n) (hn : n < 2 ^ 53) :
    (Float.ofNat n).toModel.unpack
      = .finite .positive (n * 2 ^ (0 - fitted n 0).toNat) (fitted n 0)
          (canonical_shift hpos hn (by decide)).pos := by
  rw [ofNat_eq_toFloat hn, unpack_toFloat hpos hn]

theorem isFinite_ofNat {n : Nat} (hn : n < 2 ^ 64) : (Float.ofNat n).isFinite = true := by
  show (Float.ofNat n).toModel.unpack.isFinite = true
  by_cases hsmall : n < 2 ^ 53
  · rcases Nat.eq_zero_or_pos n with rfl | hpos
    · rfl
    · rw [unpack_ofNat hpos hsmall]
      rfl
  · have hproduct : (Float.ofNat n).toModel = Float.Model.pack
        (roundWithAccuracy Format.binary64 .positive (n <<< 53 * 10 ^ 0) (-53 + 0) .exact) := by
      show (Float.ofScientific n false 0).toModel = _
      rw [Float.ofScientific, dif_neg (fun h => hsmall h.1)]
      show Float.Model.pack (UnpackedFloat.ofScientific Format.binary64 n 0) = _
      have hne : n ≠ 0 := by omega
      have hexp : ¬ (0 : Int) < -((2 ^ Format.binary64.exponentBits : Int) + n.log2) := by
        have : (2 ^ Format.binary64.exponentBits : Int) = 2048 := rfl
        omega
      rw [UnpackedFloat.ofScientific, dif_neg hne, if_neg (by decide), if_neg hexp,
        if_pos (by decide)]
      rfl
    have hm : n <<< 53 * 10 ^ 0 < 2 ^ 118 := by
      rw [Nat.shiftLeft_eq]
      omega
    generalize n <<< 53 * 10 ^ 0 = m at hproduct hm
    rw [hproduct]
    exact isFinite_round hm (by decide) (by decide)

theorem isFinite_neg {x : Float} (hx : x.isFinite = true) : (-x).isFinite = true := by
  have hfinite : x.toModel.unpack.isFinite = true := hx
  show (UnpackedFloat.unpack Format.binary64
    (x.toModel.unpack.neg.pack Format.binary64)).isFinite = true
  rcases hu : x.toModel.unpack with s | _ | s | ⟨s, m, e, hm⟩
  case finite => exact isFinite_unpack_pack (canonical_of_unpack hu).2
  case zero =>
    cases s <;> rfl
  all_goals
    rw [hu] at hfinite
    cases hfinite

/-- Every 64-bit word, signed or not, is near a finite double. -/
theorem isFinite_ofInt {n : Int} (h : FitsWord n) : (Float.ofInt n).isFinite = true := by
  cases n with
  | ofNat n => exact isFinite_ofNat (Int.ofNat_lt.1 h.2)
  | negSucc n => exact isFinite_neg (isFinite_ofNat (by have := h.1; omega))

theorem ceilNat_ofNat {n : Nat} (hn : n < 2 ^ 53) : ceilNat (Float.ofNat n) = n := by
  rcases Nat.eq_zero_or_pos n with rfl | hpos
  · rfl
  · have hle : fitted n 0 ≤ 0 := fitted_le hn (by decide)
    rw [ceilNat, unpack_ofNat hpos hn]
    dsimp only
    split
    · rename_i h0
      obtain h0 : fitted n 0 = 0 := by omega
      rw [h0]
      simp
    · have hp : 0 < 2 ^ (-fitted n 0).toNat := Nat.pow_pos (by decide)
      rw [Int.zero_sub, Nat.pow_eq, Nat.add_sub_assoc hp, Nat.mul_comm,
        Nat.mul_add_div hp, Nat.div_eq_of_lt (Nat.sub_lt hp (by decide)), Nat.add_zero]

end Binary64

/-- A 32-bit count comes back from the double of its value. -/
theorem Parameter.count_ofInt (n : UInt32) : count (Float.ofInt n.toNat) = n := by
  have hn := n.toNat_lt
  show UInt32.ofNat (min (Binary64.ceilNat (Float.ofNat n.toNat)) maxCount) = n
  rw [Binary64.ceilNat_ofNat (by omega), Nat.min_eq_left (by show n.toNat ≤ 4294967295; omega)]
  exact UInt32.ofNat_toNat

end SpriteCanvas
