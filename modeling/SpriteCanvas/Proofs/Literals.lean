import SpriteCanvas.Proofs.NumberReading
import SpriteCanvas.Proofs.WholeDoubles

/-!
# Number literals

A number literal has a sign, digits, a point and an exponent (`Literal`).  Two readers read it: that
of decimals always gives the nearest double (`Literal.readLiteral?_chars`), and that of values does
where its arithmetic rounds to the nearest double (`Literal.exists_readNumber`).  For words and for
short literals it does in any case (`Literal.readsNearest_of_short`).
-/

namespace SpriteCanvas

/-! ## Literals -/

/-- The exponent of a literal. -/
structure Literal.Scale where
  mark : Char
  sign : List Char
  digits : List Char
  isMark : mark = 'e' ∨ mark = 'E'
  isSign : sign = [] ∨ sign = ['+'] ∨ sign = ['-']
  isDigit : ∀ c ∈ digits, c.isDigit = true
  digits_ne_nil : digits ≠ []

/-- A number literal. -/
structure Literal where
  negative : Bool
  whole : List Char
  /-- The digits after the point; if there are none, there is no point. -/
  tenths : List Char
  scale : Option Literal.Scale
  whole_isDigit : ∀ c ∈ whole, c.isDigit = true
  whole_ne_nil : whole ≠ []
  /-- A leading zero stands alone. -/
  leading : whole.head? = some '0' → whole = ['0']
  tenths_isDigit : ∀ c ∈ tenths, c.isDigit = true

namespace Literal

namespace Scale

/-- The text of an exponent. -/
def chars (s : Scale) : List Char := s.mark :: (s.sign ++ s.digits)

/-- The power of ten that an exponent names. -/
def value (s : Scale) : Int :=
  if s.sign = ['-'] then -Decimal.digitsValue 0 s.digits else Decimal.digitsValue 0 s.digits

end Scale

/-- The text of a literal from its point on. -/
def tail (l : Literal) : List Char :=
  (if l.tenths.isEmpty then [] else '.' :: l.tenths) ++ l.scale.elim [] Scale.chars

/-- The text of a literal. -/
def chars (l : Literal) : List Char :=
  (if l.negative then ['-'] else []) ++ (l.whole ++ l.tail)

/-- The digits of a literal as a whole number. -/
def significand (l : Literal) : Nat := Decimal.digitsValue (Decimal.digitsValue 0 l.whole) l.tenths

/-- The power of ten by which the significand is scaled. -/
def exponent (l : Literal) : Int := l.scale.elim 0 Scale.value - l.tenths.length

/-- A magnitude with the sign of a literal. -/
def signed (l : Literal) (x : Float) : Float := if l.negative then -x else x

/-- The double nearest to a literal. -/
def nearest (l : Literal) : Float := l.signed (Decimal.toFloat l.significand l.exponent)

/-- What the reader of values collects of a literal: the digits that fit a word. -/
def collected (l : Literal) : Json.Digits :=
  let d := (Json.Digits.whole ⟨0, 0⟩ l.whole).fraction l.tenths
  ⟨d.significand, d.exponent + l.scale.elim 0 Scale.value⟩

/-- The arithmetic of the reader of values gives the double nearest to a literal. -/
def ReadsNearest (l : Literal) : Prop :=
  l.collected.toFloat = Decimal.toFloat l.significand l.exponent

/-- A literal of plain digits. -/
def IsPlain (l : Literal) : Prop := l.tenths = [] ∧ l.scale = none

/-- The whole number that plain digits stand for. -/
def toInt (l : Literal) : Int := if l.negative then -l.significand else l.significand

/-- The significand and the power of ten are both doubles, so that scaling rounds once. -/
def IsShort (l : Literal) : Prop := l.significand < 2 ^ 53 ∧ l.exponent.natAbs ≤ 22

/-- A literal of a word, or a short one. -/
def IsExact (l : Literal) : Prop := (l.IsPlain ∧ FitsWord l.toInt) ∨ l.IsShort

end Literal

/-! ## Digits -/

section Digits

variable {ds rest : List Char} {n : Nat} {e : Int}

theorem ne_of_isDigit {c d : Char} (hc : c.isDigit = true) (hd : d.isDigit = false) : c ≠ d := by
  rintro rfl
  rw [hc] at hd
  cases hd

theorem dropWhile_of_takeWhile {p : Char → Bool} (h : rest.takeWhile p = []) :
    rest.dropWhile p = rest := by
  have happend := List.takeWhile_append_dropWhile (p := p) (l := rest)
  rwa [h, List.nil_append] at happend

theorem takeWhile_digits (hds : ∀ c ∈ ds, c.isDigit = true)
    (hrest : rest.takeWhile Char.isDigit = []) : (ds ++ rest).takeWhile Char.isDigit = ds := by
  rw [List.takeWhile_append_of_pos hds, hrest, List.append_nil]

theorem dropWhile_digits (hds : ∀ c ∈ ds, c.isDigit = true)
    (hrest : rest.takeWhile Char.isDigit = []) : (ds ++ rest).dropWhile Char.isDigit = rest := by
  rw [List.dropWhile_append_of_pos hds, dropWhile_of_takeWhile hrest]

namespace Decimal

/-- The digits after a point, if there is one, with what comes after them. -/
def splitTenths (cs : List Char) : List Char × List Char :=
  match cs with
  | '.' :: r => (r.takeWhile Char.isDigit, r.dropWhile Char.isDigit)
  | r => ([], r)

/-- Reads the exponent of digits, if there is one, and gives the double. -/
def readScaled? (whole : List Char) (p : List Char × List Char) : Option Float :=
  if whole.isEmpty && p.1.isEmpty then none
  else
    match p.2 with
    | [] => some (toFloat (digitsValue (digitsValue 0 whole) p.1) (-p.1.length))
    | c :: r =>
      if c = 'e' || c = 'E' then (readExponent? r).map fun e =>
        toFloat (digitsValue (digitsValue 0 whole) p.1) (e - p.1.length)
      else none

theorem readUnsigned?_eq (cs : List Char) : readUnsigned? cs
    = readScaled? (cs.takeWhile Char.isDigit) (splitTenths (cs.dropWhile Char.isDigit)) := rfl

end Decimal

namespace Json

theorem readDigits_digits (hds : ∀ c ∈ ds, c.isDigit = true) (hne : ds ≠ [])
    (hrest : rest.takeWhile Char.isDigit = []) : readDigits (ds ++ rest) = .ok (ds, rest) := by
  cases ds with
  | nil => exact absurd rfl hne
  | cons c ds =>
    rw [List.forall_mem_cons] at hds
    rw [List.cons_append, readDigits, if_pos hds.1, takeWhile_digits hds.2 hrest,
      dropWhile_digits hds.2 hrest]

theorem readWholeDigits_digits (hds : ∀ c ∈ ds, c.isDigit = true) (hne : ds ≠ [])
    (hleading : ds.head? = some '0' → ds = ['0']) (hrest : rest.takeWhile Char.isDigit = []) :
    readWholeDigits (ds ++ rest) = .ok (ds, rest) := by
  by_cases hzero : ds.head? = some '0'
  · obtain rfl := hleading hzero
    cases rest with
    | nil => rfl
    | cons c rest =>
      have hc : ¬ c.isDigit = true := fun h => by simp [h] at hrest
      exact if_neg hc
  · rw [readWholeDigits]
    · exact readDigits_digits hds hne hrest
    · intro c cs heq
      cases ds with
      | nil => exact hne rfl
      | cons d ds =>
        obtain ⟨rfl, -⟩ := List.cons.inj heq
        exact hzero rfl

theorem foldl_digits (hds : ∀ c ∈ ds, c.isDigit = true) :
    ds.foldl (fun (n : Int) c => 10 * n + (c.toNat - '0'.toNat)) n = Decimal.digitsValue n ds := by
  induction ds generalizing n with
  | nil => rfl
  | cons c ds ih =>
    rw [List.forall_mem_cons] at hds
    have hle : '0'.toNat ≤ c.toNat := by
      have := hds.1
      simp only [Char.isDigit, Bool.and_eq_true, decide_eq_true_eq] at this
      exact this.1
    have hstep : 10 * (n : Int) + (c.toNat - '0'.toNat)
        = (10 * n + (c.toNat - '0'.toNat) : Nat) := by
      rw [Int.natCast_add, Int.natCast_sub hle]
      rfl
    rw [List.foldl_cons, hstep, ih hds.2]
    rfl

theorem digitsValue_mono (n : Nat) (ds : List Char) : n ≤ Decimal.digitsValue n ds := by
  induction ds generalizing n with
  | nil => exact Nat.le_refl n
  | cons c ds ih => exact Nat.le_trans (by omega) (ih (10 * n + (c.toNat - '0'.toNat)))

/-- No digit is lost if the power of ten has not grown. -/
theorem Digits.significand_whole (h : (Digits.whole ⟨n, e⟩ ds).exponent = e) :
    (Digits.whole ⟨n, e⟩ ds).significand = Decimal.digitsValue n ds := by
  induction ds generalizing n with
  | nil => rfl
  | cons c ds ih =>
    rw [Digits.whole] at h ⊢
    split at h
    · rename_i hlt
      rw [if_pos hlt, ih h, Nat.mul_comm]
      rfl
    · have hgrown : e + ((c :: ds).length : Int) ≠ e := by
        rw [List.length_cons]
        omega
      exact absurd h hgrown

theorem Digits.fraction_eq (h : Decimal.digitsValue n ds < UInt64.size) :
    Digits.fraction ⟨n, e⟩ ds = ⟨Decimal.digitsValue n ds, e - ds.length⟩ := by
  induction ds generalizing n e with
  | nil => simp [Digits.fraction, Decimal.digitsValue]
  | cons c ds ih =>
    have hle := digitsValue_mono (10 * n + (c.toNat - '0'.toNat)) ds
    rw [Digits.fraction, Nat.mul_comm n 10, if_pos (Nat.lt_of_le_of_lt hle h), ih h]
    simp only [List.length_cons, Digits.mk.injEq]
    exact ⟨rfl, by omega⟩

end Json

namespace Binary64

theorem powerOfTen_eq : ∀ k : Fin 23, Json.powerOfTen k
    = Float.exactlyRepresentablePowersOfTen.toList.get (Fin.cast (by rfl) k) := by
  decide +kernel

theorem zero_scaled : ∀ k : Fin 23, Float.ofNat 0 * Json.powerOfTen k = 0
    ∧ Float.ofNat 0 / Json.powerOfTen k = 0 := by decide +kernel

/-- A decimal of two doubles is rounded once. -/
theorem ofScientific_small {m k : Nat} (hm : m < 2 ^ 53) (hk : k ≤ 22) (down : Bool) :
    Float.ofScientific m down k
      = if down then Float.ofNat m / Json.powerOfTen k else Float.ofNat m * Json.powerOfTen k := by
  rw [ofNat_eq_toFloat hm, powerOfTen_eq ⟨k, by omega⟩, Float.ofScientific, dif_pos ⟨hm, hk⟩]
  rfl

end Binary64

end Digits

namespace Literal

variable {l : Literal}

namespace Scale

variable (s : Scale)

/-- The sign of an exponent decides between a digit and what is read after it. -/
theorem sign_cases : (s.sign = ['-'] ∧ s.value = -Decimal.digitsValue 0 s.digits)
    ∨ ((s.sign = [] ∨ s.sign = ['+']) ∧ s.value = Decimal.digitsValue 0 s.digits) := by
  unfold value
  rcases s.isSign with h | h | h <;> simp [h]

theorem exists_digit : ∃ c ds, s.digits = c :: ds ∧ c ≠ '-' ∧ c ≠ '+' := by
  obtain ⟨c, ds, h⟩ := List.exists_cons_of_ne_nil s.digits_ne_nil
  have hc := s.isDigit c (h ▸ List.mem_cons_self)
  exact ⟨c, ds, h, ne_of_isDigit hc rfl, ne_of_isDigit hc rfl⟩

theorem readUnsignedExponent_digits (negative : Bool) :
    Json.readUnsignedExponent negative s.digits = .ok
      (if negative then -(Decimal.digitsValue 0 s.digits : Int) else Decimal.digitsValue 0 s.digits,
        []) := by
  have hread : Json.readDigits (s.digits ++ []) = .ok (s.digits, []) :=
    Json.readDigits_digits s.isDigit s.digits_ne_nil rfl
  have hfold : s.digits.foldl (fun (n : Int) c => 10 * n + (c.toNat - '0'.toNat)) 0
      = Decimal.digitsValue 0 s.digits := Json.foldl_digits s.isDigit (n := 0)
  rw [List.append_nil] at hread
  rw [Json.readUnsignedExponent, hread]
  show Except.ok (if negative then -(List.foldl _ (0 : Int) _) else List.foldl _ (0 : Int) _, _) = _
  rw [hfold]

theorem readExponent_chars : Json.readExponent (s.sign ++ s.digits) = .ok (s.value, []) := by
  rcases s.sign_cases with ⟨hsign, hvalue⟩ | ⟨hsign | hsign, hvalue⟩ <;> rw [hsign, hvalue]
  · exact s.readUnsignedExponent_digits true
  · obtain ⟨c, ds, hds, hm, hp⟩ := s.exists_digit
    have hread := s.readUnsignedExponent_digits false
    rw [List.nil_append]
    rw [hds] at hread ⊢
    rw [Json.readExponent_of_ne hm hp, hread]
    rfl
  · exact s.readUnsignedExponent_digits false

theorem readExponent?_chars : Decimal.readExponent? (s.sign ++ s.digits) = some s.value := by
  have hall : s.digits.all Char.isDigit = true := List.all_eq_true.2 s.isDigit
  have hempty : s.digits.isEmpty = false := by simpa using s.digits_ne_nil
  obtain ⟨c, ds, hds, hm, hp⟩ := s.exists_digit
  rcases s.sign_cases with ⟨hsign, hvalue⟩ | ⟨hsign | hsign, hvalue⟩ <;> rw [hsign, hvalue]
  · simp [Decimal.readExponent?, hall, hempty]
  · rw [List.nil_append]
    rw [hds] at hall hempty ⊢
    unfold Decimal.readExponent?
    split
    rename_i h
    split at h
    · rename_i heq
      exact absurd (List.cons.inj heq).1 hm
    · rename_i heq
      exact absurd (List.cons.inj heq).1 hp
    · cases h
      simp [hall]
  · simp [Decimal.readExponent?, hall, hempty]

end Scale

/-! ## Reading a literal -/

theorem takeWhile_scale (scale : Option Scale) :
    (scale.elim [] Scale.chars).takeWhile Char.isDigit = [] := by
  cases scale with
  | none => rfl
  | some s =>
    show List.takeWhile Char.isDigit (s.mark :: (s.sign ++ s.digits)) = []
    rcases s.isMark with h | h <;> rw [h] <;> rfl

theorem takeWhile_tail (l : Literal) : l.tail.takeWhile Char.isDigit = [] := by
  unfold tail
  split
  · exact takeWhile_scale l.scale
  · rfl

/-- No point follows the digits before it if there are none after it. -/
theorem scale_ne_point (scale : Option Scale) (r : List Char) :
    scale.elim [] Scale.chars ≠ '.' :: r := by
  intro heq
  cases scale with
  | none => cases heq
  | some s =>
    obtain ⟨h, -⟩ := List.cons.inj heq
    rcases s.isMark with hm | hm <;> rw [hm] at h <;> cases h

/-- The digits after the point are read up to the exponent. -/
theorem readTenths_tail (l : Literal) :
    Json.readTenths l.tail = .ok (l.tenths, l.scale.elim [] Scale.chars) := by
  unfold tail
  split
  · rename_i h
    rw [List.nil_append, Json.readTenths_of_ne (scale_ne_point l.scale), List.isEmpty_iff.1 h]
  · rename_i h
    exact Json.readDigits_digits l.tenths_isDigit (by simpa using h) (takeWhile_scale l.scale)

theorem readUnsigned_chars (l : Literal) : Json.readUnsigned l.negative (l.whole ++ l.tail)
    = Json.readScale l.negative l.whole l.tenths (l.scale.elim [] Scale.chars) := by
  rw [Json.readUnsigned, Json.readWholeDigits_digits l.whole_isDigit l.whole_ne_nil l.leading
    l.takeWhile_tail]
  show (Json.readTenths l.tail >>= _) = _
  rw [readTenths_tail]
  rfl

/-- What the reader of values makes of the digits of a literal without an exponent. -/
theorem readScale_of_none (h : l.scale = none) :
    Json.readScale l.negative l.whole l.tenths (l.scale.elim [] Scale.chars)
      = Json.plainNumber l.negative l.whole l.tenths >>= fun n => .ok (n, []) := by
  rw [h, Option.elim_none, Json.readScale_of_noExponent fun c r h => by cases h]

/-- What the reader of values makes of the digits of a literal with an exponent. -/
theorem readScale_of_some {s : Scale} (h : l.scale = some s) :
    Json.readScale l.negative l.whole l.tenths (l.scale.elim [] Scale.chars)
      = l.collected.toNumber l.negative >>= fun n => .ok (n, []) := by
  have hmark : (s.mark = 'e' || s.mark = 'E') = true := by simpa using s.isMark
  rw [collected, h, Option.elim_some, Option.elim_some, Scale.chars]
  simp only [Json.readScale, if_pos hmark, s.readExponent_chars]
  rfl

/-- A literal begins with a digit after its sign. -/
theorem exists_whole (l : Literal) : ∃ c cs, l.whole = c :: cs ∧ c.isDigit = true := by
  obtain ⟨c, cs, h⟩ := List.exists_cons_of_ne_nil l.whole_ne_nil
  exact ⟨c, cs, h, l.whole_isDigit c (h ▸ List.mem_cons_self)⟩

theorem readNumber_chars (l : Literal) :
    Json.readNumber l.chars = Json.readUnsigned l.negative (l.whole ++ l.tail) := by
  unfold chars
  cases l.negative with
  | true => exact Json.readNumber_minus
  | false =>
    obtain ⟨c, cs, h, hc⟩ := l.exists_whole
    rw [h]
    exact Json.readNumber_of_ne (ne_of_isDigit hc rfl)

theorem splitTenths_tail (l : Literal) :
    Decimal.splitTenths l.tail = (l.tenths, l.scale.elim [] Scale.chars) := by
  unfold tail
  split_ifs with h
  · rw [List.nil_append, List.isEmpty_iff.1 h, Decimal.splitTenths]
    exact scale_ne_point l.scale
  · exact Prod.ext (takeWhile_digits l.tenths_isDigit (takeWhile_scale l.scale))
      (dropWhile_digits l.tenths_isDigit (takeWhile_scale l.scale))

theorem readUnsigned?_chars (l : Literal) : Decimal.readUnsigned? (l.whole ++ l.tail)
    = some (Decimal.toFloat l.significand l.exponent) := by
  have hwhole : ¬ (l.whole.isEmpty && l.tenths.isEmpty) = true := by simp [l.whole_ne_nil]
  rw [Decimal.readUnsigned?_eq, takeWhile_digits l.whole_isDigit l.takeWhile_tail,
    dropWhile_digits l.whole_isDigit l.takeWhile_tail, splitTenths_tail, Decimal.readScaled?,
    if_neg hwhole, exponent]
  cases l.scale with
  | none => exact congrArg (some ∘ Decimal.toFloat l.significand) (zero_sub _).symm
  | some s =>
    show (if s.mark = 'e' || s.mark = 'E' then
      (Decimal.readExponent? (s.sign ++ s.digits)).map _ else none) = _
    rw [if_pos (by simpa using s.isMark), s.readExponent?_chars]
    rfl

/-- The reader of decimals gives the double nearest to a literal. -/
theorem readLiteral?_chars (l : Literal) : Decimal.readLiteral? l.chars = some l.nearest := by
  have hread := l.readUnsigned?_chars
  unfold chars nearest signed
  cases l.negative with
  | true =>
    show (Decimal.readUnsigned? (l.whole ++ l.tail)).map (-·) = _
    rw [hread]
    rfl
  | false =>
    obtain ⟨c, cs, h, hc⟩ := l.exists_whole
    rw [h] at hread ⊢
    have hm := ne_of_isDigit hc (d := '-') rfl
    have hp := ne_of_isDigit hc (d := '+') rfl
    simp only [Bool.false_eq_true, if_false, List.nil_append]
    unfold Decimal.readLiteral?
    split
    · rename_i heq
      exact absurd (List.cons.inj heq).1 hm
    · rename_i heq
      exact absurd (List.cons.inj heq).1 hp
    · exact hread

/-! ## The same double -/

theorem collected_of_lt (h : l.significand < UInt64.size) :
    l.collected = ⟨l.significand, l.exponent⟩ := by
  have hwhole : Decimal.digitsValue 0 l.whole < UInt64.size :=
    Nat.lt_of_le_of_lt (Json.digitsValue_mono _ l.tenths) h
  have hfirst : Json.Digits.whole ⟨0, 0⟩ l.whole = ⟨Decimal.digitsValue 0 l.whole, 0⟩ :=
    Json.Digits.whole_eq hwhole
  rw [collected, hfirst, Json.Digits.fraction_eq h, exponent]
  simp only [significand, Json.Digits.mk.injEq, true_and]
  omega

/-- Short literals are read as the nearest double. -/
theorem readsNearest_of_short (h : l.IsShort) : l.ReadsNearest := by
  obtain ⟨hm, he⟩ := h
  rw [ReadsNearest, collected_of_lt (Nat.lt_trans hm (by decide)), Decimal.toFloat,
    Binary64.ofScientific_small hm he, Json.Digits.toFloat]
  generalize l.exponent = e at he
  split
  · rename_i hzero
    have hscaled := Binary64.zero_scaled ⟨e.natAbs, by omega⟩
    obtain hzero : l.significand = 0 := hzero
    rw [hzero]
    split
    · exact hscaled.2.symm
    · exact hscaled.1.symm
  · split
    · rename_i hpos
      obtain ⟨k, rfl⟩ := Int.eq_ofNat_of_zero_le (show 0 ≤ e from hpos)
      rw [if_pos (show (k : Int) ≤ 308 by omega), if_neg (by simp)]
      rfl
    · rename_i hneg
      have hneg' : e < 0 := not_le.1 hneg
      rw [if_pos (show -308 ≤ e by omega), if_pos (by simpa using hneg')]

/-- A word is converted as the decimal that it is. -/
theorem toFloat_toInt (h : ¬ (l.negative = true ∧ l.toInt = 0)) :
    Float.ofInt l.toInt = l.signed (Decimal.toFloat l.significand 0) := by
  unfold toInt signed at *
  cases hn : l.negative with
  | false => rfl
  | true =>
    rw [hn] at h
    obtain ⟨k, hk⟩ := Nat.exists_eq_succ_of_ne_zero (n := l.significand) fun h0 => by
      rw [h0] at h
      exact h ⟨rfl, rfl⟩
    rw [hk]
    rfl

theorem toNumber_collected (hrange : l.nearest.isFinite = true) (h : l.ReadsNearest) :
    l.collected.toNumber l.negative = .ok (.double l.nearest hrange) := by
  have hsame : (if l.negative then -l.collected.toFloat else l.collected.toFloat) = l.nearest := by
    rw [h]
    rfl
  simp only [Json.Digits.toNumber, hsame]
  exact dif_pos hrange

theorem exponent_of_plain (h : l.IsPlain) : l.exponent = 0 := by
  rw [exponent, h.1, h.2]
  rfl

theorem collected_of_plain (h : l.IsPlain) : l.collected = Json.Digits.whole ⟨0, 0⟩ l.whole := by
  rw [collected, h.1, h.2]
  exact congrArg (Json.Digits.mk _) (add_zero _)

theorem significand_of_plain (h : l.IsPlain) : l.significand = Decimal.digitsValue 0 l.whole := by
  rw [significand, h.1]
  rfl

/-- Plain digits are a word, or they are read as the nearest double. -/
theorem wholeNumber_of_plain (hplain : l.IsPlain) (hrange : l.nearest.isFinite = true)
    (h : ¬ l.IsExact → l.ReadsNearest) :
    ∃ n, Json.wholeNumber l.negative l.whole = .ok n ∧ n.toFloat = l.nearest := by
  have hcollected := collected_of_plain hplain
  by_cases hword : FitsWord l.toInt ∧ ¬ (l.negative = true ∧ l.toInt = 0)
  · have hlt : Decimal.digitsValue 0 l.whole < UInt64.size := by
      rw [← significand_of_plain hplain]
      have hfit := hword.1
      unfold toInt at hfit
      show l.significand < 18446744073709551616
      split at hfit <;> omega
    have hdigits : Json.Digits.whole ⟨0, 0⟩ l.whole = ⟨l.significand, 0⟩ := by
      rw [significand_of_plain hplain]
      exact Json.Digits.whole_eq hlt
    refine ⟨.whole l.toInt hword.1, ?_, ?_⟩
    · simp only [Json.wholeNumber, hdigits]
      exact dif_pos hword
    · rw [nearest, exponent_of_plain hplain]
      exact toFloat_toInt hword.2
  · -- A negative zero is a double, but a short one.
    have hnearest : l.ReadsNearest := by
      by_cases hexact : l.IsExact
      · refine readsNearest_of_short (hexact.elim (fun hfit => ?_) id)
        have hzero : l.toInt = 0 := (not_not.1 fun h0 => hword ⟨hfit.2, h0⟩).2
        have hm : l.significand = 0 := by
          unfold toInt at hzero
          split at hzero <;> omega
        rw [IsShort, hm, exponent_of_plain hplain]
        decide
      · exact h hexact
    refine ⟨.double l.nearest hrange, ?_, rfl⟩
    rw [← toNumber_collected hrange hnearest, hcollected, Json.wholeNumber]
    dsimp only
    split
    · rename_i h0
      have hm := Json.Digits.significand_whole h0
      rw [← significand_of_plain hplain] at hm
      refine dif_neg fun hfit => hword ?_
      rwa [hm] at hfit
    · rfl

/-- A literal with a point or an exponent is read as the double nearest to it. -/
theorem readUnsigned_of_not_plain (hplain : ¬ l.IsPlain) (hrange : l.nearest.isFinite = true)
    (h : l.ReadsNearest) : Json.readUnsigned l.negative (l.whole ++ l.tail)
      = .ok (.double l.nearest hrange, []) := by
  have hnumber := toNumber_collected hrange h
  rw [readUnsigned_chars]
  cases hscale : l.scale with
  | some s => rw [← hscale, readScale_of_some hscale, hnumber]; rfl
  | none =>
    have htenths : ¬ l.tenths.isEmpty = true := fun h0 =>
      hplain ⟨List.isEmpty_iff.1 h0, hscale⟩
    have hcollected : (Json.Digits.whole ⟨0, 0⟩ l.whole).fraction l.tenths = l.collected := by
      rw [collected, hscale]
      exact congrArg (Json.Digits.mk _) (add_zero _).symm
    rw [← hscale, readScale_of_none hscale, Json.plainNumber, if_neg htenths, hcollected, hnumber]
    rfl

/-- The reader of values accepts a literal in range, and reads the nearest double. -/
theorem exists_readNumber (hrange : l.nearest.isFinite = true) (h : ¬ l.IsExact → l.ReadsNearest) :
    ∃ n, Json.readNumber l.chars = .ok (n, []) ∧ n.toFloat = l.nearest := by
  rw [readNumber_chars]
  by_cases hplain : l.IsPlain
  · obtain ⟨n, hn, hnearest⟩ := wholeNumber_of_plain hplain hrange h
    have htenths : l.tenths.isEmpty = true := List.isEmpty_iff.2 hplain.1
    refine ⟨n, ?_, hnearest⟩
    rw [readUnsigned_chars, readScale_of_none hplain.2, Json.plainNumber, if_pos htenths, hn]
    rfl
  · have hnearest : l.ReadsNearest := by
      by_cases hexact : l.IsExact
      · exact readsNearest_of_short (hexact.resolve_left fun hfit => hplain hfit.1)
      · exact h hexact
    exact ⟨.double l.nearest hrange, readUnsigned_of_not_plain hplain hrange hnearest, rfl⟩

end Literal

end SpriteCanvas
