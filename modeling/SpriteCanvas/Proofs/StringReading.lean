import SpriteCanvas.Json.Printer
import SpriteCanvas.Proofs.Reading

/-!
# Strings read back

Every character of a string is written so that it reads back, the quote, the backslash and the
control characters by an escape (`readStringRest_stringChar`), so every string does
(`readString_stringChars`).
-/

namespace SpriteCanvas.Json

/-! ## Escapes -/

theorem hexDigit?_digitChar : ∀ n < 16, hexDigit? (Nat.digitChar n) = some n := by decide

theorem utf8Size_digitChar : ∀ n < 16, (Nat.digitChar n).utf8Size = 1 := by decide

/-- A unit of at most two digits reads back. -/
theorem readUnit_digits {n : Nat} (hn : n < 256) (rest : List Char) :
    readUnit ('0' :: '0' :: Nat.digitChar (n / 16) :: Nat.digitChar (n % 16) :: rest)
      = .ok (n, rest) := by
  have hhigh : n / 16 < 16 := by omega
  have hlow : n % 16 < 16 := by omega
  have hbytes : hasBytes 4
      ('0' :: '0' :: Nat.digitChar (n / 16) :: Nat.digitChar (n % 16) :: rest) = true := by
    have hzero : '0'.utf8Size = 1 := rfl
    simp only [hasBytes, hzero, utf8Size_digitChar _ hhigh, utf8Size_digitChar _ hlow]
    cases rest <;> rfl
  have hzero : hexDigit? '0' = some 0 := rfl
  simp only [readUnit, hbytes, hzero, hexDigit?_digitChar _ hhigh, hexDigit?_digitChar _ hlow]
  have hunit : ((0 * 16 + 0) * 16 + n / 16) * 16 + n % 16 = n := by omega
  simp only [hunit, Bool.not_true, Bool.false_eq_true, if_false]

theorem readEscapedUnits_control {c : Char} (hc : c.toNat < 0x20) (rest : List Char) :
    readEscapedUnits
      ('0' :: '0' :: Nat.digitChar (c.toNat / 16) :: Nat.digitChar (c.toNat % 16) :: rest)
      = .ok (c, rest) := by
  rw [readEscapedUnits, readUnit_digits (by omega)]
  show (if 0xdc00 ≤ c.toNat ∧ c.toNat ≤ 0xdfff then _ else _) = _
  rw [if_neg (by omega)]
  show (if c.toNat < 0xd800 ∨ 0xdbff < c.toNat then _ else _) = _
  rw [if_pos (by omega), Char.ofNat_toNat]
  rfl

/-! ## Strings -/

variable {spine done rest : List Char}

/-- What a character is written as reads as that character. -/
theorem readStringRest_stringChar (x c : Char) :
    readStringRest (x :: spine) done (stringChar c ++ rest)
      = readStringRest spine (c :: done) rest := by
  unfold stringChar
  split
  · rfl
  · rfl
  · rfl
  · rfl
  · rfl
  · rfl
  · rfl
  · rename_i hquote hslash _ _ _ _ _
    split
    · rename_i hc
      show (readEscapedUnits ('0' :: '0' :: _ :: _ :: rest) >>= _) = _
      rw [readEscapedUnits_control hc]
      rfl
    · rename_i hc
      rw [List.cons_append, List.nil_append, readStringRest, if_neg hquote, if_neg hslash,
        if_neg hc]

theorem readStringRest_chars {cs : List Char} (hspine : cs.length < spine.length) :
    readStringRest spine done (cs.flatMap stringChar ++ '"' :: rest)
      = .ok (String.ofList (done.reverse ++ cs), rest) := by
  induction cs generalizing spine done with
  | nil =>
    rcases spine with _ | ⟨x, spine⟩
    · cases hspine
    · rw [List.append_nil]
      rfl
  | cons c cs ih =>
    rcases spine with _ | ⟨x, spine⟩
    · cases hspine
    · rw [List.flatMap_cons, List.append_assoc, readStringRest_stringChar,
        ih (Nat.lt_of_succ_lt_succ hspine), List.reverse_cons, List.append_assoc]
      rfl

theorem length_le_flatMap_stringChar (cs : List Char) :
    cs.length ≤ (cs.flatMap stringChar).length := by
  induction cs with
  | nil => exact Nat.le_refl 0
  | cons c cs ih =>
    have hpos : 1 ≤ (stringChar c).length := by
      unfold stringChar
      split <;> try exact Nat.succ_le_succ (Nat.zero_le _)
      split <;> exact Nat.succ_le_succ (Nat.zero_le _)
    rw [List.flatMap_cons, List.length_append, List.length_cons]
    omega

/-- A string reads back from its text, after the opening quote. -/
theorem readString_chars (s : String) (rest : List Char) :
    readString (s.toList.flatMap stringChar ++ '"' :: rest) = .ok (s, rest) := by
  have hlength := length_le_flatMap_stringChar s.toList
  rw [readString, readStringRest_chars, List.reverse_nil, List.nil_append, String.ofList_toList]
  rw [List.length_append, List.length_cons]
  omega

theorem stringChars_append (s : String) (rest : List Char) :
    stringChars s ++ rest = '"' :: (s.toList.flatMap stringChar ++ '"' :: rest) := by
  simp [stringChars]

end SpriteCanvas.Json
