import SpriteCanvas.Proofs.Doubles
import SpriteCanvas.Proofs.Timetable

/-!
# Longer messages

More seconds give no shorter duration (`Duration.ofSeconds_mono`): a finite double is a whole number
of the least doubles (`Binary64.leasts`), and rounding keeps the order of quotients.  The deadlines
are in the same order unless only the longer duration runs past the end of the clock
(`Duration.deadline_le_iff`).
-/

namespace SpriteCanvas

namespace Binary64

open Float.Model

/-! ## Rounded quotients -/

theorem divHalfEven_mono {a a' : Nat} (h : a ≤ a') (b : Nat) :
    divHalfEven a b ≤ divHalfEven a' b := by
  have hq : a / b ≤ a' / b := Nat.div_le_div_right h
  have hup : divHalfEven a b ≤ a / b + 1 := by
    simp only [divHalfEven]
    split_ifs <;> omega
  have hdown : a' / b ≤ divHalfEven a' b := by
    simp only [divHalfEven]
    split_ifs <;> omega
  rcases Nat.lt_or_eq_of_le hq with hlt | heq
  · omega
  · -- Of one quotient the greater remainder is not rounded down when the lesser one is rounded up.
    have hr : a % b ≤ a' % b := by
      have := Nat.div_add_mod a b
      have := Nat.div_add_mod a' b
      rw [← heq] at this
      omega
    simp only [divHalfEven, ← heq]
    split_ifs <;> omega

theorem divHalfEven_mul_right (a : Nat) {b c : Nat} (hc : 0 < c) :
    divHalfEven (a * c) (b * c) = divHalfEven a b := by
  have hless : ∀ x y : Nat, 2 * (x * c) < y * c ↔ 2 * x < y := fun x y => by
    rw [← Nat.mul_assoc, Nat.mul_lt_mul_right hc]
  have hmore : ∀ x y : Nat, y * c < 2 * (x * c) ↔ y < 2 * x := fun x y => by
    rw [← Nat.mul_assoc, Nat.mul_lt_mul_right hc]
  simp only [divHalfEven, Nat.mul_div_mul_right _ _ hc, Nat.mul_mod_mul_right, hless, hmore]

theorem divHalfEven_mul_self (a : Nat) {b : Nat} (hb : 0 < b) : divHalfEven (a * b) b = a := by
  simp [divHalfEven, Nat.mul_div_cancel _ hb, hb]

/-! ## Doubles as multiples of the least one -/

/-- How many times the least positive double a positive finite one is; zero for any other. -/
def leasts (x : Float) : Nat :=
  match x.toModel.unpack with
  | .finite .positive m e _ => m * 2 ^ (e + 1074).toNat
  | _ => 0

theorem mulRoundNat_eq (x : Float) (k : Nat) :
    mulRoundNat x k = divHalfEven (leasts x * k) (2 ^ 1074) := by
  have hzero : divHalfEven (0 * k) (2 ^ 1074) = 0 := by
    rw [Nat.zero_mul, divHalfEven, Nat.zero_div, Nat.zero_mod]
    exact if_pos (by positivity)
  rcases hx : x.toModel.unpack with s | _ | s | ⟨s, m, e, hm⟩
  case finite =>
    cases s with
    | negative => simp only [mulRoundNat, leasts, hx, hzero]
    | positive =>
      obtain ⟨⟨-, -, he, -⟩, -⟩ := canonical_of_unpack hx
      simp only [mulRoundNat, leasts, hx]
      split_ifs with h0
      · have hsum : (e + 1074).toNat = e.toNat + 1074 := by omega
        rw [hsum, Nat.pow_add, ← Nat.mul_assoc, Nat.mul_right_comm (m * 2 ^ e.toNat),
          divHalfEven_mul_self _ (by positivity)]
        rfl
      · have hpow : 2 ^ (-e).toNat * 2 ^ (e + 1074).toNat = 2 ^ 1074 := by
          rw [← Nat.pow_add]
          exact congrArg (2 ^ ·) (by omega)
        rw [Nat.mul_right_comm, ← hpow, divHalfEven_mul_right _ (by positivity)]
        rfl
  all_goals simp only [mulRoundNat, leasts, hx, hzero]

/-- Of two canonical forms the one with the greater exponent is greater. -/
theorem Canonical.le_of_exponent_lt {m n : Nat} {e f : Int} (hm : Canonical m e)
    (hn : Canonical n f) (h : e < f) :
    m * 2 ^ (e + 1074).toNat ≤ n * 2 ^ (f + 1074).toNat := by
  have hfull : 2 ^ 52 ≤ n := hn.full.resolve_right (by have := hm.le; omega)
  have hsum : (f + 1074).toNat = (f - e - 1).toNat + 1 + (e + 1074).toNat := by
    have := hm.le
    omega
  calc m * 2 ^ (e + 1074).toNat
      ≤ 2 ^ 53 * 2 ^ (e + 1074).toNat := Nat.mul_le_mul_right _ hm.lt.le
    _ ≤ n * 2 ^ ((f - e - 1).toNat + 1) * 2 ^ (e + 1074).toNat := by
        refine Nat.mul_le_mul_right _ ?_
        calc 2 ^ 53 = 2 ^ 52 * 2 ^ 1 := rfl
          _ ≤ n * 2 ^ ((f - e - 1).toNat + 1) :=
            Nat.mul_le_mul hfull (Nat.pow_le_pow_right (by decide) (Nat.le_add_left ..))
    _ = n * 2 ^ (f + 1074).toNat := by rw [hsum, Nat.mul_assoc, ← Nat.pow_add]

/-- Positive doubles compare as their exponents do, then as their significands. -/
theorem le_finite_positive {m n : Nat} {e f : Int} {hm : 0 < m} {hn : 0 < n}
    (h : (UnpackedFloat.finite .positive m e hm).le (.finite .positive n f hn) = true) :
    e < f ∨ e = f ∧ m ≤ n := by
  have hor : ((compare e f).then (compare m n)).isLE = true := h
  rcases hef : compare e f with _ | _ | _ <;> rw [hef] at hor
  · exact .inl (Int.compare_eq_lt.1 hef)
  · exact .inr ⟨Int.compare_eq_eq.1 hef, Nat.isLE_compare.1 hor⟩
  · cases hor

theorem leasts_mono {x y : Float} (hy : y.isFinite = true) (h : x ≤ y) : leasts x ≤ leasts y := by
  have hfinite : y.toModel.unpack.isFinite = true := hy
  rw [le_iff] at h
  unfold leasts
  rcases hx : x.toModel.unpack with s | _ | s | ⟨s, m, e, hm⟩
  case finite =>
    cases s with
    | negative => exact Nat.zero_le _
    | positive =>
      rw [hx] at h
      rcases hu : y.toModel.unpack with t | _ | t | ⟨t, n, f, hn⟩ <;> rw [hu] at h hfinite
      case finite =>
        cases t with
        | negative => cases h
        | positive =>
          rcases le_finite_positive h with hlt | ⟨rfl, hle⟩
          · exact (canonical_of_unpack hx).1.le_of_exponent_lt (canonical_of_unpack hu).1 hlt
          · exact Nat.mul_le_mul_right _ hle
      case infinity => cases hfinite
      all_goals cases h
  all_goals exact Nat.zero_le _

theorem mulRoundNat_mono {x y : Float} (hy : y.isFinite = true) (h : x ≤ y) (k : Nat) :
    mulRoundNat x k ≤ mulRoundNat y k := by
  rw [mulRoundNat_eq, mulRoundNat_eq]
  exact divHalfEven_mono (Nat.mul_le_mul_right k (leasts_mono hy h)) _

end Binary64

namespace Duration

variable {a b : Float}

theorem ofSeconds_mono (hb : b.isFinite = true) (h : a ≤ b) : ofSeconds a ≤ ofSeconds b :=
  min_le_min_right _ (Binary64.mulRoundNat_mono hb h _)

/-- So many seconds from `now` on run past the end of the clock. -/
def PastClock (clockStart now : Nat) (secs : Float) : Prop :=
  clockRange ≤ clockStart + now + ofSeconds secs

theorem deadline_pastClock {clockStart now : Nat} (h : PastClock clockStart now b) :
    deadline clockStart now (ofSeconds b) = now + thirtyYears := by
  rw [deadline, if_neg (Nat.not_lt.2 h)]

theorem deadline_le_iff (h : ofSeconds a ≤ ofSeconds b) (clockStart now : Nat) :
    deadline clockStart now (ofSeconds a) ≤ deadline clockStart now (ofSeconds b)
      ↔ (PastClock clockStart now b → PastClock clockStart now a ∨ ofSeconds a ≤ thirtyYears) := by
  simp only [deadline, PastClock]
  split_ifs <;> omega

/-- Seconds that the clock has room for at its beginning need not fit 2000 seconds later. -/
example : deadline 0 0 (ofSeconds 9223372036854774784) = 9223372036854774784 * second
    ∧ deadline 0 (2000 * second) (ofSeconds 9223372036854774784)
      = 2000 * second + thirtyYears := by
  decide +kernel

end Duration

namespace Alarms

open Duration

/-- Of two messages that are shown from one time on, the one with more seconds is not over earlier,
unless it alone runs past the end of the clock and the other is shown for more than thirty years. -/
theorem longer_message_over_later {x y : Alarms} (hx : x.Sound) (hy : y.Sound) {a b : Float}
    (hb : b.isFinite = true) (hab : a ≤ b) (clockStart now : Nat) (i j : SpriteId) :
    ∃ t u, (x.set clockStart now (ofSeconds a) (.message i)).2.Armed x.next (.message i) t
      ∧ (y.set clockStart now (ofSeconds b) (.message j)).2.Armed y.next (.message j) u
      ∧ (t ≤ u ↔ (PastClock clockStart now b →
          PastClock clockStart now a ∨ ofSeconds a ≤ thirtyYears))
      ∧ (PastClock clockStart now b → u = now + thirtyYears) :=
  ⟨deadline clockStart now (ofSeconds a), deadline clockStart now (ofSeconds b),
    (hx.armed_set clockStart now _).2 (.inl ⟨rfl, rfl, rfl⟩),
    (hy.armed_set clockStart now _).2 (.inl ⟨rfl, rfl, rfl⟩),
    deadline_le_iff (ofSeconds_mono hb hab) clockStart now, deadline_pastClock⟩

/-- A second, and seconds for which a clock that reads 2000 seconds at the start has no room left,
so that they count as thirty years. -/
theorem second_over_before_pastClock : initial.Sound
    ∧ (9223372036854774784 : Float).isFinite = true
    ∧ (1 : Float) ≤ 9223372036854774784
    ∧ ∃ t u, (initial.set (2000 * second) 5 (ofSeconds 1) (.message "a")).2.Armed 1 (.message "a") t
      ∧ (initial.set (2000 * second) 5 (ofSeconds 9223372036854774784) (.message "b")).2.Armed 1
        (.message "b") u
      ∧ t ≤ u ∧ u = 5 + thirtyYears := by
  have hb : (9223372036854774784 : Float).isFinite = true := by decide +kernel
  have hab : (1 : Float) ≤ 9223372036854774784 := by decide +kernel
  have hpast : PastClock (2000 * second) 5 9223372036854774784 := by
    unfold PastClock
    decide +kernel
  obtain ⟨t, u, ht, hu, hle, hpastClock⟩ := longer_message_over_later sound_initial sound_initial
    hb hab (2000 * second) 5 "a" "b"
  exact ⟨sound_initial, hb, hab, t, u, ht, hu, hle.2 fun _ => .inr (by decide +kernel),
    hpastClock hpast⟩

/-- A message of `10 ^ 19` seconds is over before one of a tenth of them. -/
theorem longer_message_over_earlier :
    ¬ ∀ (a b : Float) (clockStart now : Nat), a.isFinite = true → b.isFinite = true → a ≤ b →
      deadline clockStart now (ofSeconds a) ≤ deadline clockStart now (ofSeconds b) := fun h =>
  absurd (h 1000000000000000000 10000000000000000000 0 0 (by decide +kernel) (by decide +kernel)
    (by decide +kernel)) (by decide +kernel)

end Alarms

end SpriteCanvas
