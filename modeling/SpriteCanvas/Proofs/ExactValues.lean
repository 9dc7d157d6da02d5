import SpriteCanvas.Proofs.WholeDoubles

/-!
# Doubles as fractions

A finite double stands for a fraction (`Binary64.toRat`), and doubles compare as their fractions do
(`Binary64.lt_iff_toRat`).  Whole numbers of at most 53 bits are added without rounding
(`Binary64.IsWhole.add`), and so are their remainders taken (`Binary64.IsWhole.remainder`).
-/

namespace SpriteCanvas.Binary64

open Float.Model
open Float.Model.UnpackedFloat (Sign roundWithAccuracy decreaseExponent shiftToTargetExponent
  shiftToExponent ExtendedMantissa unpack_packedZero)

/-! ## Fractions -/

/-- The fraction that an unpacked double stands for; zero if it is not finite. -/
def fraction : UnpackedFloat → ℚ
  | .finite s m e _ => s.apply m * 2 ^ e
  | _ => 0

/-- The fraction that a double stands for; zero if it is not finite. -/
def toRat (x : Float) : ℚ := fraction x.toModel.unpack

theorem fraction_positive {m : Nat} {e : Int} (hm : 0 < m) :
    fraction (.finite .positive m e hm) = m * 2 ^ e := by
  simp [fraction, Sign.apply]

theorem fraction_negative {m : Nat} {e : Int} (hm : 0 < m) :
    fraction (.finite .negative m e hm) = -(m * 2 ^ e) := by
  simp [fraction, Sign.apply]

/-- A sign stays with a magnitude that is written in another way. -/
theorem apply_mul_eq (s : Sign) {k l : Nat} {q r : ℚ} (h : (k : ℚ) * q = l * r) :
    ((s.apply k : Int) : ℚ) * q = (s.apply l : Int) * r := by
  cases s with
  | positive => exact_mod_cast h
  | negative =>
    simp only [Sign.apply, Int.cast_neg, neg_mul, neg_inj]
    exact_mod_cast h

theorem two_zpow_pos (e : Int) : (0 : ℚ) < 2 ^ e := zpow_pos (by norm_num) e

/-- Of two canonical forms the one with the greater exponent is greater. -/
theorem Canonical.lt_of_exponent_lt {m n : Nat} {e f : Int} (hm : Canonical m e)
    (hn : Canonical n f) (h : e < f) : (m : ℚ) * 2 ^ e < n * 2 ^ f := by
  have hfull : (2 : ℚ) ^ 52 ≤ n := by
    exact_mod_cast hn.full.resolve_right (by have := hm.le; omega)
  have hlt : (m : ℚ) < 2 ^ 53 := by exact_mod_cast hm.lt
  calc (m : ℚ) * 2 ^ e < 2 ^ 53 * 2 ^ e := mul_lt_mul_of_pos_right hlt (two_zpow_pos e)
    _ = 2 ^ 52 * 2 ^ (e + 1) := by rw [zpow_add_one₀ (by norm_num)]; ring
    _ ≤ n * 2 ^ (e + 1) := mul_le_mul_of_nonneg_right hfull (two_zpow_pos _).le
    _ ≤ n * 2 ^ f := mul_le_mul_of_nonneg_left
        (zpow_le_zpow_right₀ (by norm_num) h) (Nat.cast_nonneg n)

/-- Canonical forms compare as their exponents do, then as their significands. -/
theorem Canonical.compare_eq {m n : Nat} {e f : Int} (hm : Canonical m e) (hn : Canonical n f) :
    (compare e f).then (compare m n) = compare ((m : ℚ) * 2 ^ e) (n * 2 ^ f) := by
  rcases lt_trichotomy e f with h | rfl | h
  · rw [compare_lt_iff_lt.2 h, compare_lt_iff_lt.2 (hm.lt_of_exponent_lt hn h)]
    rfl
  · rw [compare_eq_iff_eq.2 (rfl : e = e), Ordering.eq_then]
    rcases lt_trichotomy m n with h | rfl | h
    · rw [compare_lt_iff_lt.2 h, eq_comm, compare_lt_iff_lt]
      exact mul_lt_mul_of_pos_right (by exact_mod_cast h) (two_zpow_pos e)
    · rw [compare_eq_iff_eq.2 (rfl : m = m), compare_eq_iff_eq.2 rfl]
    · rw [compare_gt_iff_gt.2 h, eq_comm, compare_gt_iff_gt]
      exact mul_lt_mul_of_pos_right (by exact_mod_cast h) (two_zpow_pos e)
  · rw [compare_gt_iff_gt.2 h, compare_gt_iff_gt.2 (hn.lt_of_exponent_lt hm h)]
    rfl

theorem compare_neg (a b : ℚ) : compare (-a) (-b) = (compare a b).swap := by
  rcases lt_trichotomy a b with h | rfl | h
  · rw [compare_lt_iff_lt.2 h, compare_gt_iff_gt.2 (neg_lt_neg h)]
    rfl
  · rw [compare_eq_iff_eq.2 rfl, compare_eq_iff_eq.2 rfl]
    rfl
  · rw [compare_gt_iff_gt.2 h, compare_lt_iff_lt.2 (neg_lt_neg h)]
    rfl

/-- A finite double is a zero or has a canonical form. -/
theorem unpack_cases {x : Float} (hx : x.isFinite = true) :
    (∃ s, x.toModel.unpack = .zero s)
      ∨ ∃ s m e hm, x.toModel.unpack = .finite s m e hm ∧ Canonical m e ∧ e ≤ 971 := by
  have hfinite : x.toModel.unpack.isFinite = true := hx
  rcases hu : x.toModel.unpack with s | _ | s | ⟨s, m, e, hm⟩ <;> rw [hu] at hfinite
  case zero => exact .inl ⟨s, rfl⟩
  case finite => exact .inr ⟨s, m, e, hm, rfl, canonical_of_unpack hu⟩
  all_goals cases hfinite

/-- Finite doubles compare as their fractions do. -/
theorem compare_eq {x y : Float} (hx : x.isFinite = true) (hy : y.isFinite = true) :
    x.toModel.unpack.compare y.toModel.unpack = some (compare (toRat x) (toRat y)) := by
  have hpos : ∀ {m : Nat} (e : Int), 0 < m → (0 : ℚ) < m * 2 ^ e := fun e hm =>
    mul_pos (by exact_mod_cast hm) (two_zpow_pos e)
  unfold toRat
  rcases unpack_cases hx with ⟨s, hu⟩ | ⟨s, m, e, hm, hu, hcm, -⟩ <;>
    rcases unpack_cases hy with ⟨t, hv⟩ | ⟨t, n, f, hn, hv, hcn, -⟩ <;> rw [hu, hv]
  · exact congrArg some (compare_eq_iff_eq.2 rfl).symm
  · cases t with
    | positive =>
      rw [fraction_positive]
      exact congrArg some (compare_lt_iff_lt.2 (hpos f hn)).symm
    | negative =>
      rw [fraction_negative]
      exact congrArg some (compare_gt_iff_gt.2 (neg_neg_of_pos (hpos f hn))).symm
  · cases s with
    | positive =>
      rw [fraction_positive]
      exact congrArg some (compare_gt_iff_gt.2 (hpos e hm)).symm
    | negative =>
      rw [fraction_negative]
      exact congrArg some (compare_lt_iff_lt.2 (neg_neg_of_pos (hpos e hm))).symm
  · have hm' := hpos e hm
    have hn' := hpos f hn
    have hcompare := hcm.compare_eq hcn
    cases s <;> cases t <;> simp only [fraction_positive, fraction_negative]
    · rw [compare_neg, ← hcompare]
      rfl
    · exact congrArg some (compare_lt_iff_lt.2 (by linarith)).symm
    · exact congrArg some (compare_gt_iff_gt.2 (by linarith)).symm
    · rw [← hcompare]
      rfl

theorem lt_iff_toRat {x y : Float} (hx : x.isFinite = true) (hy : y.isFinite = true) :
    x < y ↔ toRat x < toRat y := by
  rw [lt_iff, UnpackedFloat.lt, compare_eq hx hy, beq_iff_eq, Option.some.injEq,
    compare_lt_iff_lt]

theorem le_iff_toRat {x y : Float} (hx : x.isFinite = true) (hy : y.isFinite = true) :
    x ≤ y ↔ toRat x ≤ toRat y := by
  rw [le_iff, UnpackedFloat.le, compare_eq hx hy, Option.any_some, Ordering.isLE_iff_ne_gt,
    ← not_lt, ← compare_gt_iff_gt]

theorem beq_iff_toRat {x y : Float} (hx : x.isFinite = true) (hy : y.isFinite = true) :
    (x == y) = true ↔ toRat x = toRat y := by
  show x.toModel.unpack.beq y.toModel.unpack = true ↔ _
  rw [UnpackedFloat.beq, compare_eq hx hy, beq_iff_eq, Option.some.injEq, compare_eq_iff_eq]

/-! ## Nothing to round -/

theorem mul_two_pow (m k : Nat) (e : Int) : ((m * 2 ^ k : Nat) : ℚ) * 2 ^ (e - k) = m * 2 ^ e := by
  rw [zpow_sub₀ (by norm_num), zpow_natCast]
  push_cast
  field_simp

/-- Zeros at the end of a significand make no difference to how it is rounded. -/
theorem round_mul_two_pow {m : Nat} (hpos : 0 < m) (hm : m < 2 ^ 53) {e : Int} (he : -1074 ≤ e)
    (k : Nat) (s : Sign) : UnpackedFloat.round Format.binary64 s (m * 2 ^ k) (e - k)
      = UnpackedFloat.round Format.binary64 s m e := by
  have hle := fitted_le hm he
  have hcanonical := canonical_shift hpos hm he
  have hfit : fitted (m * 2 ^ k) (e - k) = fitted m e := by
    rw [fitted, fitted, log2_mul_two_pow hpos]
    omega
  rw [round_exact hpos hm he]
  -- The significand is longer or shorter than that of the canonical form.
  rcases le_total (fitted m e) (e - k) with hk | hk
  · have hlonger : decreaseExponent (m * 2 ^ k) (e - k) (fitted m e)
        = (m * 2 ^ (e - fitted m e).toNat, fitted m e) := by
      simp only [decreaseExponent, Nat.shiftLeft_eq, Nat.mul_assoc, ← Nat.pow_add]
      have hexponent : k + (e - k - fitted m e).toNat = (e - fitted m e).toNat := by omega
      rw [hexponent]
      exact Prod.ext rfl (by show e - k - ((e - k - fitted m e).toNat : Int) = fitted m e; omega)
    simp only [UnpackedFloat.round, target_eq, hfit, hlonger]
    exact roundWithAccuracy_of_shift hcanonical (shift_canonical hcanonical.fitted_eq.le) s
  · have hsame : decreaseExponent (m * 2 ^ k) (e - k) (fitted m e) = (m * 2 ^ k, e - k) := by
      have h0 : (e - k - fitted m e).toNat = 0 := by omega
      simp [decreaseExponent, h0]
    have hsplit : m * 2 ^ k
        = m * 2 ^ (e - fitted m e).toNat * 2 ^ (fitted m e - (e - k)).toNat := by
      rw [Nat.mul_assoc, ← Nat.pow_add]
      congr 2
      omega
    have hshorter : shiftToTargetExponent Format.binary64 (m * 2 ^ k) (e - k) .exact
        = (⟨m * 2 ^ (e - fitted m e).toNat, false, false⟩, fitted m e) := by
      simp only [shiftToTargetExponent, target_eq, hfit, shiftToExponent]
      rw [hsplit]
      exact Prod.ext (shiftRight_mul_two_pow _ _)
        (by show e - k + ((fitted m e - (e - k)).toNat : Int) = fitted m e; omega)
    simp only [UnpackedFloat.round, target_eq, hfit, hsame]
    exact roundWithAccuracy_of_shift hcanonical hshorter s

/-- However a whole number of at most 53 bits is written, rounding leaves it as it is. -/
theorem round_whole {m n : Nat} {e : Int} (hpos : 0 < m) (hn : n < 2 ^ 53)
    (h : (m : ℚ) * 2 ^ e = n) (s : Sign) :
    UnpackedFloat.round Format.binary64 s m e = UnpackedFloat.round Format.binary64 s n 0 := by
  rcases le_total 0 e with he | he
  · obtain ⟨k, rfl⟩ := Int.eq_ofNat_of_zero_le he
    have hmn : m * 2 ^ k = n := by exact_mod_cast h
    have hm : m < 2 ^ 53 := Nat.lt_of_le_of_lt
      (hmn ▸ Nat.le_mul_of_pos_right m (Nat.pow_pos (by decide))) hn
    have hround := round_mul_two_pow hpos hm (e := k) (by omega) k s
    rw [hmn, sub_self] at hround
    exact hround.symm
  · obtain ⟨k, hk⟩ := Int.eq_ofNat_of_zero_le (neg_nonneg.2 he)
    obtain rfl : e = -k := by omega
    have hmn : m = n * 2 ^ k := by
      rw [zpow_neg, zpow_natCast, ← div_eq_mul_inv, div_eq_iff (by positivity)] at h
      exact_mod_cast h
    have hn0 : 0 < n := Nat.pos_of_ne_zero fun h0 => by
      rw [hmn, h0, Nat.zero_mul] at hpos
      exact Nat.lt_irrefl 0 hpos
    rw [hmn, ← round_mul_two_pow hn0 hn (by decide) k s, zero_sub]

/-- An unpacked double stands for a whole number. -/
def Stands (f : UnpackedFloat) (n : Int) : Prop := f.isFinite = true ∧ fraction f = n

theorem stands_zero (s : Sign) : Stands (.zero s) 0 := ⟨rfl, Int.cast_zero.symm⟩

theorem Stands.eq_zero {s : Sign} {n : Int} (h : Stands (.zero s) n) : n = 0 :=
  Int.cast_eq_zero.1 h.2.symm

theorem stands_pack_zero (s : Sign) : Stands (UnpackedFloat.unpack Format.binary64
    ((UnpackedFloat.zero s).pack Format.binary64)) 0 := by
  rw [UnpackedFloat.pack, unpack_packedZero]
  exact stands_zero s

/-- What is packed in canonical form stands for the same number. -/
theorem Stands.pack {s : Sign} {m : Nat} {e n : Int} {hm : 0 < m}
    (hn : Stands (.finite s m e hm) n) (h : Canonical m e) (he : e ≤ 971) :
    Stands (UnpackedFloat.unpack Format.binary64
      ((UnpackedFloat.finite s m e hm).pack Format.binary64)) n := by
  rwa [unpack_pack h he]

theorem stands_round {m n : Nat} {e : Int} (hpos : 0 < m) (hn : n < 2 ^ 53)
    (h : (m : ℚ) * 2 ^ e = n) (s : Sign) :
    Stands (UnpackedFloat.unpack Format.binary64
      ((UnpackedFloat.round Format.binary64 s m e).pack Format.binary64)) (s.apply n) := by
  have hn0 : 0 < n := by
    have : (0 : ℚ) < n := h ▸ mul_pos (by exact_mod_cast hpos) (two_zpow_pos e)
    exact_mod_cast this
  have hle : fitted n 0 ≤ 0 := fitted_le hn (by decide)
  have hcanonical := canonical_shift hn0 hn (by decide : (-1074 : Int) ≤ 0)
  have hvalue := apply_mul_eq s (mul_two_pow n (0 - fitted n 0).toNat 0)
  rw [show (0 : Int) - ((0 - fitted n 0).toNat : Int) = fitted n 0 by omega, zpow_zero,
    mul_one] at hvalue
  rw [round_whole hpos hn h s, round_exact hn0 hn (by decide),
    unpack_pack hcanonical (Int.le_trans hle (by decide))]
  exact ⟨rfl, hvalue⟩

theorem stands_normalize {m n : Int} {e : Int} (hn : n.natAbs < 2 ^ 53)
    (h : (m : ℚ) * 2 ^ e = n) (z : Sign) :
    Stands (UnpackedFloat.unpack Format.binary64
      ((UnpackedFloat.normalize Format.binary64 m e z).pack Format.binary64)) n := by
  have hpos := two_zpow_pos e
  unfold UnpackedFloat.normalize
  rcases lt_trichotomy m 0 with hm | rfl | hm
  · have hneg : n < 0 := by
      have : (n : ℚ) < 0 := h ▸ mul_neg_of_neg_of_pos (by exact_mod_cast hm) hpos
      exact_mod_cast this
    have hval : (((-m).toNat : Nat) : ℚ) * 2 ^ e = ((-n).toNat : Nat) := by
      have hm' : (((-m).toNat : Nat) : ℚ) = -m := by
        exact_mod_cast Int.toNat_of_nonneg (by omega : 0 ≤ -m)
      have hn' : (((-n).toNat : Nat) : ℚ) = -n := by
        exact_mod_cast Int.toNat_of_nonneg (by omega : 0 ≤ -n)
      rw [hm', hn', neg_mul, h]
    rw [Int.compare_eq_lt.2 hm]
    have hstands := stands_round (by omega) (by omega) hval .negative
    rwa [show Sign.negative.apply ((-n).toNat : Nat) = n by
      show -((-n).toNat : Int) = n
      omega] at hstands
  · obtain rfl : n = 0 := by
      rw [Int.cast_zero, zero_mul] at h
      exact_mod_cast h.symm
    exact stands_pack_zero z
  · have hpos : 0 < n := by
      have : (0 : ℚ) < n := h ▸ mul_pos (by exact_mod_cast hm) hpos
      exact_mod_cast this
    have hval : ((m.toNat : Nat) : ℚ) * 2 ^ e = (n.toNat : Nat) := by
      have hm' : ((m.toNat : Nat) : ℚ) = m := by
        exact_mod_cast Int.toNat_of_nonneg hm.le
      have hn' : ((n.toNat : Nat) : ℚ) = n := by
        exact_mod_cast Int.toNat_of_nonneg hpos.le
      rw [hm', hn', h]
    rw [Int.compare_eq_gt.2 hm]
    have hstands := stands_round (by omega) (by omega) hval .positive
    rwa [show Sign.positive.apply (n.toNat : Nat) = n from Int.toNat_of_nonneg hpos.le] at hstands

/-! ## Whole numbers -/

/-- A double stands for a whole number; both zeros stand for zero. -/
structure IsWhole (x : Float) (n : Int) : Prop where
  isFinite : x.isFinite = true
  toRat_eq : toRat x = n

variable {x y : Float} {a b : Int}

theorem isWhole_iff : IsWhole x a ↔ Stands x.toModel.unpack a :=
  ⟨fun h => ⟨h.isFinite, h.toRat_eq⟩, fun h => ⟨h.1, h.2⟩⟩

theorem IsWhole.lt_iff (hx : IsWhole x a) (hy : IsWhole y b) : x < y ↔ a < b := by
  rw [lt_iff_toRat hx.isFinite hy.isFinite, hx.toRat_eq, hy.toRat_eq, Int.cast_lt]

theorem IsWhole.le_iff (hx : IsWhole x a) (hy : IsWhole y b) : x ≤ y ↔ a ≤ b := by
  rw [le_iff_toRat hx.isFinite hy.isFinite, hx.toRat_eq, hy.toRat_eq, Int.cast_le]

theorem IsWhole.beq_iff (hx : IsWhole x a) (hy : IsWhole y b) : (x == y) = true ↔ a = b := by
  rw [beq_iff_toRat hx.isFinite hy.isFinite, hx.toRat_eq, hy.toRat_eq, Int.cast_inj]

theorem isWhole_ofNat {n : Nat} (hn : n < 2 ^ 53) : IsWhole (Float.ofNat n) n := by
  rcases Nat.eq_zero_or_pos n with rfl | hpos
  · exact isWhole_iff.2 (stands_zero .positive)
  · have hle : fitted n 0 ≤ 0 := fitted_le hn (by decide)
    have hvalue := mul_two_pow n (0 - fitted n 0).toNat 0
    rw [show (0 : Int) - ((0 - fitted n 0).toNat : Int) = fitted n 0 by omega, zpow_zero,
      mul_one] at hvalue
    rw [isWhole_iff, unpack_ofNat hpos hn]
    exact ⟨rfl, (fraction_positive _).trans hvalue⟩

theorem IsWhole.neg (hx : IsWhole x a) : IsWhole (-x) (-a) := by
  refine isWhole_iff.2 ?_
  show Stands (UnpackedFloat.unpack Format.binary64
    (x.toModel.unpack.neg.pack Format.binary64)) (-a)
  rcases unpack_cases hx.isFinite with ⟨s, hu⟩ | ⟨s, m, e, hm, hu, hcm, hem⟩ <;>
    rw [isWhole_iff, hu] at hx <;> rw [hu]
  · obtain rfl := hx.eq_zero
    exact stands_pack_zero (-s)
  · refine Stands.pack (s := -s) ⟨rfl, ?_⟩ hcm hem
    rw [Int.cast_neg, ← hx.2]
    cases s
    · exact (fraction_positive hm).trans (by rw [fraction_negative, neg_neg])
    · exact (fraction_negative hm).trans (by rw [fraction_positive])

theorem isWhole_ofInt {n : Int} (hn : n.natAbs < 2 ^ 53) : IsWhole (Float.ofInt n) n := by
  cases n with
  | ofNat n => exact isWhole_ofNat hn
  | negSucc n => exact (isWhole_ofNat hn).neg

/-- What is shifted to a lesser exponent stands for the same fraction. -/
theorem shifted_left {e d : Int} (h : d ≤ e) (s : Sign) (m : Nat) :
    ((s.apply (m <<< (e - d).toNat : Nat) : Int) : ℚ) * 2 ^ d = s.apply m * 2 ^ e := by
  have hvalue := apply_mul_eq s (mul_two_pow m (e - d).toNat e)
  rwa [show e - ((e - d).toNat : Int) = d by omega, ← Nat.shiftLeft_eq] at hvalue

/-- Sums of whole numbers are exact up to 53 bits. -/
theorem IsWhole.add (hx : IsWhole x a) (hy : IsWhole y b) (h : (a + b).natAbs < 2 ^ 53) :
    IsWhole (x + y) (a + b) := by
  refine isWhole_iff.2 ?_
  show Stands (UnpackedFloat.unpack Format.binary64 ((UnpackedFloat.add Format.binary64
    x.toModel.unpack y.toModel.unpack).pack Format.binary64)) (a + b)
  rcases unpack_cases hx.isFinite with ⟨s, hu⟩ | ⟨s, m, e, hm, hu, hcm, hem⟩ <;>
    rcases unpack_cases hy.isFinite with ⟨t, hv⟩ | ⟨t, n, f, hn, hv, hcn, hen⟩ <;>
    rw [isWhole_iff, hu] at hx <;> rw [isWhole_iff, hv] at hy <;> rw [hu, hv]
  · obtain rfl := hx.eq_zero
    obtain rfl := hy.eq_zero
    cases s <;> cases t <;> exact stands_pack_zero _
  · obtain rfl := hx.eq_zero
    rw [zero_add]
    exact hy.pack hcn hen
  · obtain rfl := hy.eq_zero
    rw [add_zero]
    exact hx.pack hcm hem
  · refine stands_normalize h ?_ .positive
    have hm := shifted_left (min_le_left e f) s m
    have hn := shifted_left (min_le_right e f) t n
    rw [Int.cast_add, add_mul, hm, hn, Int.cast_add]
    exact congrArg₂ (· + ·) hx.2 hy.2

theorem toRat_ofDyadic {m : Nat} (hm : m < 2 ^ 53) {e : Int} (he : -1074 ≤ e) (he' : e ≤ 971)
    (s z : Sign) : (ofDyadic (s.apply m) e z).isFinite = true
      ∧ toRat (ofDyadic (s.apply m) e z) = s.apply m * 2 ^ e := by
  show (ofDyadic (s.apply m) e z).toModel.unpack.isFinite = true
    ∧ fraction (ofDyadic (s.apply m) e z).toModel.unpack = _
  rcases Nat.eq_zero_or_pos m with rfl | hpos
  · rw [unpack_ofDyadic_zero]
    refine ⟨rfl, ?_⟩
    cases s <;> simp [fraction, Sign.apply]
  · have hle := fitted_le hm he
    have hvalue := apply_mul_eq s (mul_two_pow m (e - fitted m e).toNat e)
    rw [show e - ((e - fitted m e).toNat : Int) = fitted m e by omega] at hvalue
    rw [unpack_ofDyadic hpos hm he he']
    exact ⟨rfl, hvalue⟩

theorem Stands.magnitude {s : Sign} {m : Nat} {e n : Int} {hm : 0 < m}
    (h : Stands (.finite s m e hm) n) : n = s.apply n.natAbs ∧ (m : ℚ) * 2 ^ e = n.natAbs := by
  have hpos : (0 : ℚ) < m * 2 ^ e := mul_pos (by exact_mod_cast hm) (two_zpow_pos e)
  have hn := h.2
  cases s with
  | positive =>
    rw [fraction_positive] at hn
    have h0 : 0 < n := by
      rw [hn] at hpos
      exact_mod_cast hpos
    have habs : (n.natAbs : Int) = n := Int.natAbs_of_nonneg h0.le
    exact ⟨habs.symm, by rw [hn, ← habs, Int.cast_natCast, Int.natAbs_natCast]⟩
  | negative =>
    rw [fraction_negative, neg_eq_iff_eq_neg] at hn
    have h0 : n < 0 := by
      rw [hn, neg_pos] at hpos
      exact_mod_cast hpos
    have habs : (n.natAbs : Int) = -n := Int.ofNat_natAbs_of_nonpos h0.le
    refine ⟨?_, by rw [hn, ← Int.cast_neg, ← habs, Int.cast_natCast]⟩
    show n = -(n.natAbs : Int)
    rw [habs, neg_neg]

theorem apply_tmod (s : Sign) (k n : Nat) : (s.apply k).tmod n = s.apply (k % n : Nat) := by
  cases s with
  | positive => exact Int.ofNat_tmod k n |>.symm
  | negative => rw [Sign.apply, Sign.apply, Int.neg_tmod, Int.ofNat_tmod]

/-- The remainder of a whole number is exact, and has its sign. -/
theorem IsWhole.remainder (hx : IsWhole x a) {n : Nat} (hn : 0 < n) (hn' : n < 2 ^ 53) :
    IsWhole (remainder x n) (a.tmod n) := by
  rcases unpack_cases hx.isFinite with ⟨s, hu⟩ | ⟨s, m, e, hm, hu, hcm, hem⟩
  · have h := isWhole_iff.1 hx
    rw [hu] at h
    obtain rfl := h.eq_zero
    simpa only [Binary64.remainder, hu, Int.zero_tmod] using hx
  · rw [isWhole_iff, hu] at hx
    obtain ⟨hsign, hvalue⟩ := hx.magnitude
    generalize a.natAbs = c at hsign hvalue
    have hlt : c % n < n := Nat.mod_lt c hn
    rw [hsign, apply_tmod]
    rcases le_or_gt 0 e with he | he
    · obtain ⟨k, rfl⟩ := Int.eq_ofNat_of_zero_le he
      have hc : m * 2 ^ k = c := by exact_mod_cast hvalue
      have hr : Binary64.remainder x n = ofDyadic (s.apply (c % n : Nat)) 0 s := by
        simp only [Binary64.remainder, hu, if_pos he, ← hc]
        push_cast
        rfl
      have hexact := toRat_ofDyadic (e := 0) (Nat.lt_trans hlt hn') (by decide) (by decide) s s
      rw [hr]
      exact ⟨hexact.1, hexact.2.trans (by rw [zpow_zero, mul_one])⟩
    · obtain ⟨k, hk⟩ := Int.eq_ofNat_of_zero_le (neg_nonneg.2 he.le)
      obtain rfl : e = -k := by omega
      have hc : m = c * 2 ^ k := by
        rw [zpow_neg, zpow_natCast, ← div_eq_mul_inv, div_eq_iff (by positivity)] at hvalue
        exact_mod_cast hvalue
      have hr : Binary64.remainder x n = ofDyadic (s.apply (c % n * 2 ^ k : Nat)) (-k) s := by
        have hmod : m % (n * 2 ^ k) = c % n * 2 ^ k := by rw [hc, Nat.mul_mod_mul_right]
        simp only [Binary64.remainder, hu, if_neg (not_le.2 he), ← hmod, neg_neg, Int.toNat_natCast]
        push_cast
        rfl
      have hle : c % n * 2 ^ k ≤ m := hc ▸ Nat.mul_le_mul_right _ (Nat.mod_le c n)
      have hexact := toRat_ofDyadic (Nat.lt_of_le_of_lt hle hcm.lt) hcm.le hem s s
      rw [hr]
      have hback := apply_mul_eq s (mul_two_pow (c % n) k 0)
      rw [zero_sub, zpow_zero, mul_one] at hback
      exact ⟨hexact.1, hexact.2.trans hback⟩

end SpriteCanvas.Binary64
