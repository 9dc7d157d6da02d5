import Mathlib.Data.List.TakeWhile
import SpriteCanvas.Proofs.Reading

/-!
# Numbers read back

A reader of numbers stops where no number goes on, so the text of a number reads the same in front
of anything that does not go on with it (`readNumber_append`).  The digits of a whole number that
fits a word read back as that number (`Number.readsBack_whole`).
-/

namespace SpriteCanvas.Json

/-- What does not go on with a number that it follows. -/
def EndsNumber : List Char → Prop
  | [] => True
  | c :: _ => c.isDigit = false ∧ c ≠ '.' ∧ c ≠ 'e' ∧ c ≠ 'E'

/-! ## Digits -/

section Stopping

variable {cs ds r rest : List Char}

theorem EndsNumber.takeWhile_isDigit (h : EndsNumber rest) :
    rest.takeWhile Char.isDigit = [] ∧ rest.dropWhile Char.isDigit = rest := by
  cases rest with
  | nil => exact ⟨rfl, rfl⟩
  | cons c rest => simp [h.1]

theorem readDigits_append (h : readDigits cs = .ok (ds, r)) (hrest : EndsNumber rest) :
    readDigits (cs ++ rest) = .ok (ds, r ++ rest) := by
  obtain ⟨htake, hdrop⟩ := hrest.takeWhile_isDigit
  cases cs with
  | nil => cases h
  | cons c cs =>
    rw [readDigits] at h
    split at h
    · rename_i hc
      cases h
      rw [List.cons_append, readDigits, if_pos hc]
      by_cases hall : ∀ a ∈ cs, a.isDigit = true
      · simp [List.takeWhile_append_of_pos hall, List.dropWhile_append_of_pos hall, htake, hdrop,
          List.takeWhile_eq_self_iff.2 hall, List.dropWhile_eq_nil_iff.2 hall]
      · have hne : ¬ (cs.takeWhile Char.isDigit).length = cs.length := fun hl =>
          hall (List.takeWhile_eq_self_iff.1 ((List.takeWhile_prefix _).eq_of_length hl))
        have hne' : (cs.dropWhile Char.isDigit).isEmpty = false := by
          rw [List.isEmpty_eq_false_iff, ne_eq, List.dropWhile_eq_nil_iff]
          exact hall
        rw [List.takeWhile_append, List.dropWhile_append, if_neg hne, hne']
        rfl
    · cases h

theorem readWholeDigits_append (h : readWholeDigits cs = .ok (ds, r)) (hrest : EndsNumber rest) :
    readWholeDigits (cs ++ rest) = .ok (ds, r ++ rest) := by
  unfold readWholeDigits at h
  split at h
  · rename_i c cs
    split at h
    · cases h
    · rename_i hc
      cases h
      simp only [List.cons_append, readWholeDigits, if_neg hc]
  · rename_i hcs
    rcases cs with _ | ⟨c, cs⟩
    · cases h
    · have hd := readDigits_append h hrest
      by_cases hzero : c = '0'
      · subst hzero
        -- The zero stands alone, so what follows decides.
        obtain rfl : cs = [] := by
          cases cs with
          | nil => rfl
          | cons c cs => exact absurd rfl (hcs c cs)
        cases h
        cases rest with
        | nil => rfl
        | cons c rest =>
          simp only [List.cons_append, List.nil_append, readWholeDigits, hrest.1]
          rfl
      · rw [List.cons_append] at hd ⊢
        rw [readWholeDigits]
        · exact hd
        · intro c' cs' heq
          exact hzero (List.cons.inj heq).1

/-- Reads an exponent after its sign. -/
def readUnsignedExponent (negative : Bool) (cs : List Char) : Except Fault (Int × List Char) := do
  let (ds, cs) ← readDigits cs
  let n : Int := ds.foldl (fun n c => 10 * n + (c.toNat - '0'.toNat)) 0
  return (if negative then -n else n, cs)

theorem readExponent_of_ne {c : Char} (hm : c ≠ '-') (hp : c ≠ '+') :
    readExponent (c :: cs) = readUnsignedExponent false (c :: cs) := by
  unfold readExponent readUnsignedExponent
  split
  rename_i negative cs' h
  split at h
  · rename_i heq
    exact absurd (List.cons.inj heq).1 hm
  · rename_i heq
    exact absurd (List.cons.inj heq).1 hp
  · cases h
    rfl

theorem readUnsignedExponent_append {negative : Bool} {e : Int}
    (h : readUnsignedExponent negative cs = .ok (e, r)) (hrest : EndsNumber rest) :
    readUnsignedExponent negative (cs ++ rest) = .ok (e, r ++ rest) := by
  obtain ⟨⟨ds, r'⟩, hd, h⟩ := bind_eq_ok.1 h
  cases h
  rw [readUnsignedExponent, readDigits_append hd hrest]
  rfl

theorem readExponent_append {e : Int} (h : readExponent cs = .ok (e, r))
    (hrest : EndsNumber rest) : readExponent (cs ++ rest) = .ok (e, r ++ rest) := by
  rcases cs with _ | ⟨c, cs⟩
  · cases h
  · rw [List.cons_append]
    by_cases hm : c = '-'
    · subst hm
      exact readUnsignedExponent_append h hrest
    by_cases hp : c = '+'
    · subst hp
      exact readUnsignedExponent_append h hrest
    rw [readExponent_of_ne hm hp] at h ⊢
    exact readUnsignedExponent_append h hrest

/-! ## Numbers -/

/-- Reads the part of a number after its point, if there is one. -/
def readTenths (cs : List Char) : Except Fault (List Char × List Char) :=
  match cs with
  | '.' :: r => readDigits r
  | r => pure ([], r)

/-- Reads the exponent of a number, if there is one, and gives the number. -/
def readScale (negative : Bool) (whole tenths : List Char) (cs : List Char) :
    Except Fault (Number × List Char) := do
  let d := ((⟨0, 0⟩ : Digits).whole whole).fraction tenths
  match cs with
  | c :: r =>
    if c = 'e' || c = 'E' then
      let (e, r) ← readExponent r
      return (← Digits.toNumber ⟨d.significand, d.exponent + e⟩ negative, r)
    else if tenths.isEmpty then return (← wholeNumber negative whole, c :: r)
    else return (← d.toNumber negative, c :: r)
  | [] =>
    if tenths.isEmpty then return (← wholeNumber negative whole, [])
    else return (← d.toNumber negative, [])

/-- Reads a number after its sign. -/
def readUnsigned (negative : Bool) (cs : List Char) : Except Fault (Number × List Char) := do
  let (whole, cs) ← readWholeDigits cs
  let (tenths, cs) ← readTenths cs
  readScale negative whole tenths cs

theorem readTenths_of_ne (h : ∀ r, cs ≠ '.' :: r) : readTenths cs = .ok ([], cs) := by
  rw [readTenths]
  · rfl
  · exact h

/-- What comes after the point is read before the number goes on. -/
theorem match_point_eq {α : Type} (k : List Char × List Char → Except Fault α) (cs : List Char) :
    (match cs with
      | '.' :: r => readDigits r >>= k
      | r => pure ([], r) >>= k) = readTenths cs >>= k := by
  split
  · rfl
  · rename_i h
    rw [readTenths_of_ne h]
    rfl

theorem readNumber_minus : readNumber ('-' :: cs) = readUnsigned true cs :=
  congrArg (readWholeDigits cs >>= ·) (funext fun p => match_point_eq _ p.2)

theorem readNumber_of_ne {c : Char} (hc : c ≠ '-') :
    readNumber (c :: cs) = readUnsigned false (c :: cs) := by
  unfold readNumber
  split
  rename_i negative cs' h
  split at h
  · rename_i heq
    exact absurd (List.cons.inj heq).1 hc
  · cases h
    exact congrArg (readWholeDigits (c :: cs) >>= ·) (funext fun p => match_point_eq _ p.2)

theorem readTenths_append (h : readTenths cs = .ok (ds, r)) (hrest : EndsNumber rest) :
    readTenths (cs ++ rest) = .ok (ds, r ++ rest) := by
  unfold readTenths at h
  split at h
  · exact readDigits_append h hrest
  · rename_i hcs
    cases h
    refine readTenths_of_ne fun r heq => ?_
    rcases cs with _ | ⟨c, cs⟩
    · rw [List.nil_append] at heq
      subst heq
      exact hrest.2.1 rfl
    · obtain ⟨rfl, -⟩ := List.cons.inj heq
      exact hcs cs rfl

/-- The number of digits without an exponent. -/
def plainNumber (negative : Bool) (whole tenths : List Char) : Except Fault Number :=
  if tenths.isEmpty then wholeNumber negative whole
  else (((⟨0, 0⟩ : Digits).whole whole).fraction tenths).toNumber negative

/-- What does not begin with the mark of an exponent. -/
def NoExponent (cs : List Char) : Prop := ∀ c r, cs = c :: r → ¬ (c = 'e' || c = 'E') = true

theorem readScale_of_noExponent {negative : Bool} {tenths : List Char} (h : NoExponent cs) :
    readScale negative ds tenths cs
      = plainNumber negative ds tenths >>= fun n => .ok (n, cs) := by
  rcases cs with _ | ⟨c, cs⟩
  · simp only [readScale, plainNumber]
    split <;> rfl
  · simp only [readScale, plainNumber, if_neg (h c cs rfl)]
    split <;> rfl

theorem NoExponent.append (h : NoExponent cs) (hrest : EndsNumber rest) :
    NoExponent (cs ++ rest) := by
  intro c r heq
  rcases cs with _ | ⟨c', cs⟩
  · rw [List.nil_append] at heq
    subst heq
    simp [hrest.2.2]
  · obtain ⟨rfl, -⟩ := List.cons.inj heq
    exact h c' cs rfl

theorem readScale_append {negative : Bool} {n : Number} {tenths : List Char}
    (h : readScale negative ds tenths cs = .ok (n, r)) (hrest : EndsNumber rest) :
    readScale negative ds tenths (cs ++ rest) = .ok (n, r ++ rest) := by
  by_cases hcs : NoExponent cs
  · rw [readScale_of_noExponent hcs] at h
    obtain ⟨x, hx, h⟩ := bind_eq_ok.1 h
    cases h
    rw [readScale_of_noExponent (hcs.append hrest), hx]
    rfl
  · simp only [NoExponent, not_forall, not_not] at hcs
    obtain ⟨c, cs, rfl, hc⟩ := hcs
    rw [List.cons_append, readScale]
    rw [readScale] at h
    simp only [if_pos hc] at h ⊢
    obtain ⟨⟨e, r'⟩, he, h⟩ := bind_eq_ok.1 h
    obtain ⟨x, hx, h⟩ := bind_eq_ok.1 h
    cases h
    rw [readExponent_append he hrest]
    show (Digits.toNumber _ negative >>= _) = _
    rw [hx]
    rfl

theorem readUnsigned_append {negative : Bool} {n : Number}
    (h : readUnsigned negative cs = .ok (n, r)) (hrest : EndsNumber rest) :
    readUnsigned negative (cs ++ rest) = .ok (n, r ++ rest) := by
  obtain ⟨⟨ds, r₁⟩, hwhole, h⟩ := bind_eq_ok.1 h
  obtain ⟨⟨tenths, r₂⟩, htenths, h⟩ := bind_eq_ok.1 h
  rw [readUnsigned, readWholeDigits_append hwhole hrest]
  show (readTenths (r₁ ++ rest) >>= _) = _
  rw [readTenths_append htenths hrest]
  exact readScale_append h hrest

/-- A number reads the same in front of what does not go on with it. -/
theorem readNumber_append {n : Number} (h : readNumber cs = .ok (n, r))
    (hrest : EndsNumber rest) : readNumber (cs ++ rest) = .ok (n, r ++ rest) := by
  rcases cs with _ | ⟨c, cs⟩
  · cases h
  · rw [List.cons_append]
    by_cases hc : c = '-'
    · subst hc
      rw [readNumber_minus] at h ⊢
      exact readUnsigned_append h hrest
    · rw [readNumber_of_ne hc] at h ⊢
      exact readUnsigned_append h hrest

/-- A number begins with a minus sign or a digit. -/
theorem head_of_readNumber {n : Number} (h : readNumber cs = .ok (n, r)) :
    ∃ c cs', cs = c :: cs' ∧ (c = '-' ∨ c.isDigit = true) := by
  rcases cs with _ | ⟨c, cs⟩
  · cases h
  · refine ⟨c, cs, rfl, ?_⟩
    by_cases hc : c = '-'
    · exact .inl hc
    · rw [readNumber_of_ne hc] at h
      obtain ⟨⟨ds, r₁⟩, hwhole, -⟩ := bind_eq_ok.1 h
      refine .inr ?_
      by_cases hzero : c = '0'
      · exact hzero ▸ rfl
      · rw [readWholeDigits, readDigits] at hwhole
        · split at hwhole
          · assumption
          · cases hwhole
        · rintro c' cs' heq
          exact hzero (List.cons.inj heq).1

end Stopping

/-! ## Whole numbers -/

theorem Digits.whole_eq {ds : List Char} {n : Nat}
    (h : Nat.ofDigitChars 10 ds n < UInt64.size) :
    Digits.whole ⟨n, 0⟩ ds = ⟨Nat.ofDigitChars 10 ds n, 0⟩ := by
  induction ds generalizing n with
  | nil => simp [Digits.whole]
  | cons c ds ih =>
    rw [Nat.ofDigitChars_cons] at h ⊢
    have hle : 10 * n + (c.toNat - '0'.toNat) ≤ Nat.ofDigitChars 10 ds
        (10 * n + (c.toNat - '0'.toNat)) := by
      rw [Nat.ofDigitChars_eq_ofDigitChars_zero]
      exact Nat.le_add_right_of_le (Nat.le_mul_of_pos_left _ (Nat.pow_pos (by decide)))
    rw [Digits.whole, Nat.mul_comm n 10, if_pos (Nat.lt_of_le_of_lt hle h)]
    exact ih h

/-- A positive number is written without a leading zero. -/
theorem head?_toDigits_ne {n : Nat} (hn : 0 < n) : (Nat.toDigits 10 n).head? ≠ some '0' := by
  induction n using Nat.strongRecOn with
  | _ n ih =>
    rw [Nat.toDigits_eq_if (by decide)]
    split
    · rename_i hlt
      simp only [List.head?_cons, ne_eq, Option.some.injEq]
      intro h
      have := congrArg Char.toNat h
      rw [Nat.toNat_digitChar_of_lt_ten hlt] at this
      simp at this
      omega
    · rename_i hge
      have hrest := ih (n / 10) (by omega) (by omega)
      rw [List.head?_append]
      rcases hds : Nat.toDigits 10 (n / 10) with _ | ⟨c, cs⟩
      · exact absurd hds Nat.toDigits_ne_nil
      · rwa [hds] at hrest

theorem readWholeDigits_toDigits (n : Nat) :
    readWholeDigits (Nat.toDigits 10 n) = .ok (Nat.toDigits 10 n, []) := by
  have hall : ∀ c ∈ Nat.toDigits 10 n, c.isDigit = true := fun c hc =>
    Nat.isDigit_of_mem_toDigits (by decide) (by decide) hc
  rcases Nat.eq_zero_or_pos n with rfl | hn
  · rfl
  · have hhead := head?_toDigits_ne hn
    rcases hds : Nat.toDigits 10 n with _ | ⟨c, cs⟩
    · exact absurd hds Nat.toDigits_ne_nil
    · rw [hds] at hall hhead
      rw [List.forall_mem_cons] at hall
      rw [readWholeDigits, readDigits, if_pos hall.1, List.takeWhile_eq_self_iff.2 hall.2,
        List.dropWhile_eq_nil_iff.2 hall.2]
      rintro c' cs' heq
      exact hhead (congrArg some (List.cons.inj heq).1)

theorem readUnsigned_toDigits {negative : Bool} {k : Int} (hfit : FitsWord k)
    (hsign : k = if negative then -(k.natAbs : Int) else k.natAbs)
    (hzero : negative = true → k ≠ 0) :
    readUnsigned negative (Nat.toDigits 10 k.natAbs) = .ok (.whole k hfit, []) := by
  have hsize : k.natAbs < UInt64.size := by
    show k.natAbs < 18446744073709551616
    omega
  have hwhole : Digits.whole ⟨0, 0⟩ (Nat.toDigits 10 k.natAbs) = ⟨k.natAbs, 0⟩ := by
    rw [Digits.whole_eq (by rwa [Nat.ofDigitChars_ten_toDigits]), Nat.ofDigitChars_ten_toDigits]
  have hnumber : wholeNumber negative (Nat.toDigits 10 k.natAbs) = .ok (.whole k hfit) := by
    simp only [wholeNumber, hwhole, if_true, ← hsign]
    exact dif_pos ⟨hfit, fun h => hzero h.1 h.2⟩
  rw [readUnsigned, readWholeDigits_toDigits]
  show (wholeNumber negative (Nat.toDigits 10 k.natAbs) >>= _) = _
  rw [hnumber]
  rfl

end SpriteCanvas.Json

namespace SpriteCanvas.Number

/-- The text of a number reads as that number. -/
def ReadsBack (n : Number) : Prop := Json.readNumber n.chars = .ok (n, [])

deriving instance DecidableEq for Number

instance (n : Number) : Decidable n.ReadsBack :=
  match h : Json.readNumber n.chars with
  | .ok (m, []) =>
    if hm : m = n then isTrue (h.trans (by rw [hm])) else isFalse fun hn => by
      cases h.symm.trans hn
      exact hm rfl
  | .ok (_, _ :: _) => isFalse fun hn => by cases h.symm.trans hn
  | .error _ => isFalse fun hn => by cases h.symm.trans hn

/-- Whole numbers read back. -/
theorem readsBack_whole (n : Int) (h : FitsWord n) : (whole n h).ReadsBack := by
  show Json.readNumber (wholeText n) = _
  unfold wholeText
  split
  · rw [Json.readNumber_minus]
    exact Json.readUnsigned_toDigits h (by rw [if_pos rfl]; omega) fun _ => by omega
  · have hread : Json.readUnsigned false (Nat.toDigits 10 n.natAbs) = .ok (.whole n h, []) :=
      Json.readUnsigned_toDigits h (by rw [if_neg Bool.false_ne_true]; omega) nofun
    rcases hds : Nat.toDigits 10 n.natAbs with _ | ⟨c, cs⟩
    · exact absurd hds Nat.toDigits_ne_nil
    · have hc : c.isDigit = true := Nat.isDigit_of_mem_toDigits (b := 10) (n := n.natAbs)
        (by decide) (by decide) (hds ▸ List.mem_cons_self)
      rw [Json.readNumber_of_ne (by rintro rfl; cases hc), ← hds, hread]

end SpriteCanvas.Number
