import SpriteCanvas.Proofs.ExactValues
import SpriteCanvas.Proofs.Reload

/-!
# How often a loop runs

The count of a loop is the number of passes that a counter makes from zero in steps of one while
it is below the number in the loop's parameter, but at most `Parameter.maxCount`
(`Command.loop_counts`).  Taking a double apart and rounding it up (`Binary64.ceilNat`) makes
nothing else of it than rounding its fraction up (`Binary64.ceilNat_eq`).
-/

namespace SpriteCanvas

namespace Binary64

open Float.Model

/-- Division that rounds up, of natural numbers. -/
theorem ceil_div_two_pow (m k : Nat) : ⌈(m : ℚ) * 2 ^ (-k : Int)⌉₊ = (m + 2 ^ k - 1) / 2 ^ k := by
  have hpos : 0 < 2 ^ k := Nat.pow_pos (by decide)
  refine le_antisymm (Nat.ceil_le.2 ?_) (Nat.le_of_lt_succ ((Nat.div_lt_iff_lt_mul hpos).2 ?_))
  · rw [zpow_neg, zpow_natCast, ← div_eq_mul_inv, div_le_iff₀ (by positivity)]
    -- The dividend lacks less than one divisor.
    have hmod := Nat.div_add_mod (m + 2 ^ k - 1) (2 ^ k)
    have hlt := Nat.mod_lt (m + 2 ^ k - 1) hpos
    have hle : m ≤ (m + 2 ^ k - 1) / 2 ^ k * 2 ^ k := by
      rw [Nat.mul_comm]
      omega
    exact_mod_cast hle
  · have hle := Nat.le_ceil ((m : ℚ) * 2 ^ (-k : Int))
    rw [zpow_neg, zpow_natCast, ← div_eq_mul_inv, div_le_iff₀ (by positivity)] at hle
    have hle' : m ≤ ⌈(m : ℚ) / 2 ^ k⌉₊ * 2 ^ k := by exact_mod_cast hle
    rw [zpow_neg, zpow_natCast, ← div_eq_mul_inv, Nat.succ_mul]
    omega

/-- The least natural number that is not below a double is the one not below its fraction. -/
theorem ceilNat_eq (x : Float) : ceilNat x = ⌈toRat x⌉₊ := by
  unfold ceilNat toRat
  rcases x.toModel.unpack with s | _ | s | ⟨s, m, e, hm⟩
  case finite =>
    cases s with
    | positive =>
      rw [fraction_positive]
      dsimp only
      split
      · rename_i he
        obtain ⟨k, rfl⟩ := Int.eq_ofNat_of_zero_le he
        have hcast : (m : ℚ) * 2 ^ (k : Int) = (m * 2 ^ k : Nat) := by push_cast; rfl
        rw [hcast, Nat.ceil_natCast]
        rfl
      · rename_i he
        obtain ⟨k, hk⟩ := Int.eq_ofNat_of_zero_le (neg_nonneg.2 (not_le.1 he).le)
        obtain rfl : e = -k := by omega
        rw [ceil_div_two_pow, neg_neg, Int.toNat_natCast]
        rfl
    | negative =>
      have hle : -((m : ℚ) * 2 ^ e) ≤ 0 :=
        neg_nonpos.2 (mul_nonneg (Nat.cast_nonneg m) (two_zpow_pos e).le)
      rw [fraction_negative, Nat.ceil_eq_zero.2 hle]
  all_goals exact Nat.ceil_zero.symm

end Binary64

/-- There are as many natural numbers below a fraction as rounding it up says. -/
theorem encard_below (q : ℚ) : {k : ℕ | (k : ℚ) < q}.encard = ⌈q⌉₊ := by
  have hset : {k : ℕ | (k : ℚ) < q} = (Finset.range ⌈q⌉₊ : Set ℕ) := by
    ext k
    rw [Finset.mem_coe, Finset.mem_range, Nat.lt_ceil]
    exact Iff.rfl
  rw [hset, Set.encard_coe_eq_coe_finsetCard, Finset.card_range]

namespace Parameter

/-- A value spells a double: it is a number whose nearest double that is, or a text of a literal
with white space around it or not. -/
inductive Spells : Json → Float → Prop
  | number (n : Number) : Spells (.number n) n.toFloat
  | text {s : String} {x : Float}
      (h : Decimal.readLiteral? (Text.trimBlank s.toList) = some x) : Spells (.text s) x

/-- A finite double that a value spells is the number in it. -/
theorem number_of_spells {v : Json} {x : Float} (h : Spells v x) (hx : x.isFinite = true) :
    number (some v) = x := by
  cases h with
  | number n => rfl
  | text hs => rw [number, hs]; exact if_pos hx

/-- The number in a value that spells no finite double is zero. -/
theorem number_of_not_spells {v : Json} (h : ∀ x, Spells v x → x.isFinite = false) :
    number (some v) = 0 := by
  unfold number
  split
  · rename_i n hv
    cases hv
    -- A number always spells a finite double.
    have hfinite := isFinite_number (some (.number n))
    rw [number, h _ (.number n)] at hfinite
    cases hfinite
  · rename_i s hv
    cases hv
    split
    · rename_i x hx
      rw [h x (.text hx)]
      rfl
    · rfl
  · rfl

theorem toNat_count (x : Float) :
    (count x).toNat = min maxCount ⌈Binary64.toRat x⌉₊ := by
  have hle : min (Binary64.ceilNat x) maxCount < UInt32.size :=
    Nat.lt_of_le_of_lt (min_le_right _ _) (by decide)
  show (UInt32.ofNat (min (Binary64.ceilNat x) maxCount)).toNat = _
  rw [UInt32.toNat_ofNat_of_lt' hle, Binary64.ceilNat_eq, min_comm]

/-- What is not above zero counts as no pass. -/
theorem count_of_le_zero {x : Float} (hx : x.isFinite = true) (h : x ≤ 0) : count x = 0 := by
  have hzero := Binary64.isWhole_ofNat (n := 0) (by decide)
  have hle := (Binary64.le_iff_toRat hx hzero.isFinite).1 h
  rw [hzero.toRat_eq] at hle
  refine UInt32.toNat_inj.1 ?_
  rw [toNat_count, Nat.ceil_eq_zero.2 (by exact_mod_cast hle)]
  rfl

end Parameter

namespace Command

/-- The text of a loop reads back as the same loop: it holds no double. -/
theorem ofText?_toText_loop (id : String) (times : UInt32) :
    Script.ofText? (Script.toText [⟨id, loop times⟩]) = .ok [⟨id, loop times⟩] := by
  refine Script.ofText?_toText (List.forall_mem_singleton.2 trivial) ?_
  intro x hx hmem
  have hnumbers : (Json.list (List.map Block.toJson [⟨id, loop times⟩])).numbers
      = (Json.ofCount times).numbers := rfl
  rw [hnumbers, Json.ofCount, Json.numbers, List.mem_singleton] at hmem
  cases hmem

/-- Under whatever value a loop is written, its parameter holds a finite number: the double that the
value spells, or zero if it spells none that is finite.  The loop's count is the number of natural
numbers below it, but at most the greatest of 32 bits; so it is zero for what is not above zero.
And every count is read where it was written, from the bag and from the text. -/
theorem loop_counts :
    (∀ (bag v : Json), bag.get? "repeat" = some v →
      ∃ n : Float, Parameter.number (some v) = n ∧ n.isFinite = true
        ∧ (∀ x, Parameter.Spells v x → x.isFinite = true → n = x)
        ∧ ((∀ x, Parameter.Spells v x → x.isFinite = false) → n = 0)
        ∧ ∃ times : UInt32, ofNamed "repeat" bag = loop times
          ∧ (times.toNat : ℕ∞) = min ((2 ^ 32 - 1 : ℕ) : ℕ∞)
              {k : ℕ | (k : ℚ) < Binary64.toRat n}.encard
          ∧ times.toNat = min (2 ^ 32 - 1) ⌈Binary64.toRat n⌉₊
          ∧ (n ≤ 0 → times = 0))
    ∧ ∀ times : UInt32, ofNamed (loop times).name (loop times).bag = loop times
        ∧ ∀ id, Script.ofText? (Script.toText [⟨id, loop times⟩]) = .ok [⟨id, loop times⟩] := by
  refine ⟨fun bag v hv => ?_, fun times => ⟨ofNamed_bag (loop times), fun id =>
    ofText?_toText_loop id times⟩⟩
  have hfinite := Parameter.isFinite_number (some v)
  have hread : ofNamed "repeat" bag = loop (Parameter.count (Parameter.number (some v))) := by
    show loop (Parameter.count (Parameter.number ((bag.get? "repeat").or _))) = _
    rw [hv]
    rfl
  have hcount := Parameter.toNat_count (Parameter.number (some v))
  refine ⟨_, rfl, hfinite, fun x hx hf => Parameter.number_of_spells hx hf,
    Parameter.number_of_not_spells, _, hread, ?_, hcount, Parameter.count_of_le_zero hfinite⟩
  rw [encard_below, hcount]
  exact Nat.mono_cast.map_min

/-- A number between the two greatest counts, as a text with white space around it, rounds up to the
greatest. -/
theorem loop_counts_near_greatest :
    (Json.object [("repeat", .text " 4294967294.5\n")]).get? "repeat"
        = some (.text " 4294967294.5\n")
    ∧ ∃ n : Float, Parameter.number (some (.text " 4294967294.5\n")) = n ∧ n.isFinite = true
      ∧ (∀ x, Parameter.Spells (.text " 4294967294.5\n") x → x.isFinite = true → n = x)
      ∧ ((∀ x, Parameter.Spells (.text " 4294967294.5\n") x → x.isFinite = false) → n = 0)
      ∧ ∃ times : UInt32,
        ofNamed "repeat" (.object [("repeat", .text " 4294967294.5\n")]) = loop times
        ∧ (times.toNat : ℕ∞) = min ((2 ^ 32 - 1 : ℕ) : ℕ∞)
            {k : ℕ | (k : ℚ) < Binary64.toRat n}.encard
        ∧ times.toNat = min (2 ^ 32 - 1) ⌈Binary64.toRat n⌉₊
        ∧ (n ≤ 0 → times = 0) :=
  ⟨rfl, loop_counts.1 _ _ rfl⟩

example : Parameter.count (Parameter.number (some (.text " 4294967294.5\n"))) = 4294967295 := by
  decide +kernel

end Command

end SpriteCanvas
