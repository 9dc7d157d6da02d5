import SpriteCanvas.Proofs.NumberReading
import SpriteCanvas.Proofs.Reading

/-!
# What is skipped

Every round of a loop that skips takes something, so a spine as long as the text is enough and the
loops go on as if there were none (`skipString_backslash`, `skipOpen_cons`).  A value that can be
read is skipped as far as it is read (`skipValue_of_readValue`), so a record does not depend on the
entries of an object that are no fields of it (`readFromObject_skip`).
-/

namespace SpriteCanvas.Json

variable {α β : Type} {cs rest : List Char}

theorem bind_congr_ok {ε : Type} {x : Except ε α} {f g : α → Except ε β}
    (h : ∀ a, x = .ok a → f a = g a) : x >>= f = x >>= g := by
  cases x with
  | error e => rfl
  | ok a => exact h a rfl

/-! ## What is taken -/

theorem length_skipSpace_le (cs : List Char) : (skipSpace cs).length ≤ cs.length :=
  List.length_dropWhile_le ..

theorem eq_append_of_readWord {ws : List Char} (h : readWord ws cs = .ok ((), rest)) :
    cs = ws ++ rest := by
  induction ws generalizing cs with
  | nil =>
    cases h
    rfl
  | cons w ws ih =>
    rcases cs with _ | ⟨c, cs⟩
    · cases h
    · rw [readWord] at h
      split at h
      · rename_i hc
        rw [hc, ih h]
        rfl
      · cases h

theorem length_of_readUnit {n : Nat} (h : readUnit cs = .ok (n, rest)) :
    cs.length = rest.length + 4 := by
  unfold readUnit at h
  split at h
  · cases h
  · split at h
    · split at h
      · cases h
        rfl
      · cases h
    · cases h

theorem length_lt_of_readDigits {ds : List Char} (h : readDigits cs = .ok (ds, rest)) :
    rest.length < cs.length := by
  rcases cs with _ | ⟨c, cs⟩
  · cases h
  · rw [readDigits] at h
    split at h
    · cases h
      exact Nat.lt_succ_of_le (List.length_dropWhile_le ..)
    · cases h

theorem length_lt_of_readWholeDigits {ds : List Char} (h : readWholeDigits cs = .ok (ds, rest)) :
    rest.length < cs.length := by
  unfold readWholeDigits at h
  split at h
  · split at h
    · cases h
    · cases h
      simp
  · exact length_lt_of_readDigits h

theorem length_lt_of_readUnsignedExponent {negative : Bool} {e : Int}
    (h : readUnsignedExponent negative cs = .ok (e, rest)) : rest.length < cs.length := by
  obtain ⟨⟨ds, r⟩, hds, h⟩ := bind_eq_ok.1 h
  cases h
  exact length_lt_of_readDigits hds

theorem length_lt_of_readExponent {e : Int} (h : readExponent cs = .ok (e, rest)) :
    rest.length < cs.length := by
  rcases cs with _ | ⟨c, cs⟩
  · cases h
  by_cases hm : c = '-'
  · subst hm
    exact Nat.lt_succ_of_lt (length_lt_of_readUnsignedExponent h)
  by_cases hp : c = '+'
  · subst hp
    exact Nat.lt_succ_of_lt (length_lt_of_readUnsignedExponent h)
  rw [readExponent_of_ne hm hp] at h
  exact length_lt_of_readUnsignedExponent h

theorem length_le_of_skipTenths (h : skipTenths cs = .ok ((), rest)) :
    rest.length ≤ cs.length := by
  unfold skipTenths at h
  split at h
  · obtain ⟨ds, hds, -⟩ := mapRead_eq_ok.1 h
    exact Nat.le_succ_of_le (length_lt_of_readDigits hds).le
  · cases h
    exact Nat.le_refl _

theorem length_le_of_skipExponent (h : skipExponent cs = .ok ((), rest)) :
    rest.length ≤ cs.length := by
  unfold skipExponent at h
  split at h
  · cases h
    exact Nat.le_refl _
  · split at h
    · obtain ⟨e, he, -⟩ := mapRead_eq_ok.1 h
      exact Nat.le_succ_of_le (length_lt_of_readExponent he).le
    · cases h
      exact Nat.le_refl _

theorem skipNumber_eq_ok :
    skipNumber cs = .ok ((), rest) ↔ skipUnsigned (skipSign cs) = .ok ((), rest) := by
  unfold skipNumber
  split
  · rename_i h
    rw [h]
  · rename_i h
    rw [h]
    exact ⟨nofun, nofun⟩

theorem length_lt_of_skipNumber (h : skipNumber cs = .ok ((), rest)) :
    rest.length < cs.length := by
  have hsign : (skipSign cs).length ≤ cs.length := by
    unfold skipSign
    split
    · exact Nat.le_succ _
    · exact Nat.le_refl _
  obtain ⟨⟨ds, r⟩, hwhole, h⟩ := bind_eq_ok.1 (skipNumber_eq_ok.1 h)
  obtain ⟨⟨⟨⟩, r'⟩, htenths, h⟩ := bind_eq_ok.1 h
  calc rest.length ≤ r'.length := length_le_of_skipExponent h
    _ ≤ r.length := length_le_of_skipTenths htenths
    _ < (skipSign cs).length := length_lt_of_readWholeDigits hwhole
    _ ≤ cs.length := hsign

theorem length_lt_of_skipEscape (h : skipEscape cs = .ok ((), rest)) :
    rest.length < cs.length := by
  unfold skipEscape at h
  split at h
  · cases h
  · obtain ⟨n, hn, -⟩ := mapRead_eq_ok.1 h
    have := length_of_readUnit hn
    simp only [List.length_cons]
    omega
  · split at h
    · cases h
      exact Nat.lt_succ_self _
    · cases h

/-! ## Strings -/

/-- One round on a string; of a character that ends nothing nothing is kept. -/
theorem skipStringRest_cons (spine : List Char) (s c : Char) (cs : List Char) :
    skipStringRest (s :: spine) (c :: cs)
      = if c = '"' then .ok ((), cs)
        else if c = '\\' then skipEscape cs >>= fun r => skipStringRest spine r.2
        else if c.toNat < 0x20 then .error .malformed
        else skipStringRest spine cs := by
  rw [skipStringRest]

theorem length_lt_of_skipStringRest {spine : List Char}
    (h : skipStringRest spine cs = .ok ((), rest)) : rest.length < cs.length := by
  induction spine generalizing cs with
  | nil => cases h
  | cons s spine ih =>
    rcases cs with _ | ⟨c, cs⟩
    · cases h
    rw [skipStringRest_cons] at h
    split at h
    · cases h
      exact Nat.lt_succ_self _
    split at h
    · obtain ⟨⟨⟨⟩, r⟩, hr, h⟩ := bind_eq_ok.1 h
      exact Nat.lt_succ_of_lt ((ih h).trans (length_lt_of_skipEscape hr))
    split at h
    · cases h
    · exact Nat.lt_succ_of_lt (ih h)

/-- Any spine that is long enough does. -/
theorem skipStringRest_congr {spine spine' : List Char} (h : cs.length ≤ spine.length)
    (h' : cs.length ≤ spine'.length) : skipStringRest spine cs = skipStringRest spine' cs := by
  induction spine generalizing cs spine' with
  | nil =>
    obtain rfl := List.length_eq_zero_iff.1 (Nat.le_zero.1 h)
    cases spine' <;> rfl
  | cons s spine ih =>
    rcases cs with _ | ⟨c, cs⟩
    · cases spine' <;> rfl
    rcases spine' with _ | ⟨s', spine'⟩
    · cases h'
    have h := Nat.le_of_succ_le_succ h
    have h' := Nat.le_of_succ_le_succ h'
    have hescape : skipEscape cs >>= (fun r => skipStringRest spine r.2)
        = skipEscape cs >>= fun r => skipStringRest spine' r.2 :=
      bind_congr_ok fun r hr =>
        have hle := (length_lt_of_skipEscape hr).le
        ih (hle.trans h) (hle.trans h')
    rw [skipStringRest_cons, skipStringRest_cons, ih h h', hescape]

theorem skipString_backslash (cs : List Char) :
    skipString ('\\' :: cs) = skipEscape cs >>= fun r => skipString r.2 := by
  rw [skipString, skipStringRest_cons, if_neg (by decide), if_pos rfl]
  exact bind_congr_ok fun r hr =>
    skipStringRest_congr (length_lt_of_skipEscape hr).le (Nat.le_refl _)

theorem skipString_cons {c : Char} (hq : c ≠ '"') (hb : c ≠ '\\') (hc : ¬ c.toNat < 0x20)
    (cs : List Char) : skipString (c :: cs) = skipString cs := by
  rw [skipString, skipStringRest_cons, if_neg hq, if_neg hb, if_neg hc, skipString]

/-- The units of an escaped character: one, or one after the other with an escape between them. -/
theorem units_of_readEscapedUnits {e : Char} (h : readEscapedUnits cs = .ok (e, rest)) :
    ∃ high r, readUnit cs = .ok (high, r)
      ∧ (r = rest ∨ ∃ r' low, r = '\\' :: 'u' :: r' ∧ readUnit r' = .ok (low, rest)) := by
  obtain ⟨⟨high, r⟩, hhigh, h⟩ := bind_eq_ok.1 h
  refine ⟨high, r, hhigh, ?_⟩
  dsimp only at h
  split at h
  · cases h
  split at h
  · cases h
    exact .inl rfl
  · obtain ⟨⟨⟨⟩, r'⟩, hmark, h⟩ := bind_eq_ok.1 h
    obtain ⟨⟨low, r''⟩, hlow, h⟩ := bind_eq_ok.1 h
    refine .inr ⟨r', low, eq_append_of_readWord hmark, ?_⟩
    dsimp only at h
    split at h
    · cases h
    · obtain ⟨-, hr⟩ := Prod.mk.inj (Except.ok.inj h)
      exact hr ▸ hlow

/-- After an escape a string goes on in the same place, whether the escape is read or skipped. -/
theorem skipString_of_readEscape {e : Char} (h : readEscape cs = .ok (e, rest)) :
    skipString ('\\' :: cs) = skipString rest := by
  have hunit : ∀ {cs' r n}, readUnit cs' = .ok (n, r) →
      skipString ('\\' :: 'u' :: cs') = skipString r := fun {cs' r} _ hn => by
    have hskip : skipEscape ('u' :: cs') = .ok ((), r) := mapRead_eq_ok.2 ⟨_, hn, rfl⟩
    rw [skipString_backslash, hskip]
    rfl
  unfold readEscape at h
  split at h
  case h_10 cs =>
    obtain ⟨high, r, hhigh, rfl | ⟨r', low, rfl, hlow⟩⟩ := units_of_readEscapedUnits h
    · exact hunit hhigh
    · exact (hunit hhigh).trans (hunit hlow)
  case h_1 | h_11 => cases h
  all_goals
    cases h
    exact skipString_backslash _

/-- A string that can be read is skipped as far. -/
theorem skipString_of_readStringRest {spine done : List Char} {s : String}
    (h : readStringRest spine done cs = .ok (s, rest)) : skipString cs = .ok ((), rest) := by
  induction spine generalizing done cs with
  | nil => cases h
  | cons x spine ih =>
    rcases cs with _ | ⟨c, cs⟩
    · cases h
    rw [readStringRest] at h
    by_cases hq : c = '"'
    · rw [if_pos hq] at h
      cases h
      rw [skipString, skipStringRest_cons, if_pos hq]
    rw [if_neg hq] at h
    by_cases hb : c = '\\'
    · rw [if_pos hb] at h
      obtain ⟨⟨e, r⟩, he, h⟩ := bind_eq_ok.1 h
      rw [hb, skipString_of_readEscape he]
      exact ih h
    rw [if_neg hb] at h
    split at h
    · cases h
    · rename_i hc
      rw [skipString_cons hq hb hc]
      exact ih h

/-! ## Numbers -/

theorem skipTenths_of_readTenths {ds : List Char} (h : readTenths cs = .ok (ds, rest)) :
    skipTenths cs = .ok ((), rest) := by
  unfold readTenths at h
  split at h
  · exact mapRead_eq_ok.2 ⟨ds, h, rfl⟩
  · rename_i hcs
    cases h
    rw [skipTenths]
    exact hcs

theorem skipExponent_of_readScale {negative : Bool} {whole tenths : List Char} {n : Number}
    (h : readScale negative whole tenths cs = .ok (n, rest)) :
    skipExponent cs = .ok ((), rest) := by
  by_cases hcs : NoExponent cs
  · rw [readScale_of_noExponent hcs] at h
    obtain ⟨x, -, h⟩ := bind_eq_ok.1 h
    cases h
    rcases cs with _ | ⟨c, cs⟩
    · rfl
    · exact if_neg (hcs c cs rfl)
  · simp only [NoExponent, not_forall, not_not] at hcs
    obtain ⟨c, cs, rfl, hc⟩ := hcs
    rw [readScale] at h
    simp only [if_pos hc] at h
    obtain ⟨⟨e, r⟩, he, h⟩ := bind_eq_ok.1 h
    obtain ⟨x, -, h⟩ := bind_eq_ok.1 h
    cases h
    rw [skipExponent, if_pos hc]
    exact mapRead_eq_ok.2 ⟨e, he, rfl⟩

theorem skipUnsigned_of_readUnsigned {negative : Bool} {n : Number}
    (h : readUnsigned negative cs = .ok (n, rest)) : skipUnsigned cs = .ok ((), rest) := by
  obtain ⟨⟨ds, r⟩, hwhole, h⟩ := bind_eq_ok.1 h
  obtain ⟨⟨tenths, r'⟩, htenths, h⟩ := bind_eq_ok.1 h
  exact bind_eq_ok.2 ⟨_, hwhole,
    bind_eq_ok.2 ⟨_, skipTenths_of_readTenths htenths, skipExponent_of_readScale h⟩⟩

/-- A number that can be read is skipped as far. -/
theorem skipNumber_of_readNumber {n : Number} (h : readNumber cs = .ok (n, rest)) :
    skipNumber cs = .ok ((), rest) := by
  rw [skipNumber_eq_ok]
  rcases cs with _ | ⟨c, cs⟩
  · cases h
  by_cases hc : c = '-'
  · subst hc
    exact skipUnsigned_of_readUnsigned (readNumber_minus ▸ h)
  · rw [skipSign]
    · exact skipUnsigned_of_readUnsigned (readNumber_of_ne hc ▸ h)
    · exact fun cs' heq => hc (List.cons.inj heq).1

/-! ## Brackets -/

theorem length_lt_of_skipHead {o : Option Bracket} (h : skipHead cs = .ok (o, rest)) :
    rest.length < cs.length := by
  refine Nat.lt_of_lt_of_le ?_ (length_skipSpace_le cs)
  unfold skipHead at h
  generalize skipSpace cs = cs at h ⊢
  have hword : ∀ {ws cs : List Char} {c : Char},
      mapRead (fun _ => none) (readWord ws) cs = .ok (o, rest) → rest.length < (c :: cs).length :=
    fun {ws cs c} hw => by
      obtain ⟨⟨⟩, hw, -⟩ := mapRead_eq_ok.1 hw
      simp only [eq_append_of_readWord hw, List.length_cons, List.length_append]
      omega
  split at h
  · cases h
  · exact hword h
  · exact hword h
  · exact hword h
  · obtain ⟨⟨⟩, hs, -⟩ := mapRead_eq_ok.1 h
    exact Nat.lt_succ_of_lt (length_lt_of_skipStringRest hs)
  · cases h
    exact Nat.lt_succ_self _
  · cases h
    exact Nat.lt_succ_self _
  · split at h
    · obtain ⟨⟨⟩, hn, -⟩ := mapRead_eq_ok.1 h
      exact length_lt_of_skipNumber hn
    · cases h

theorem length_le_of_goesOn {close : Char} {first more : Bool}
    (h : goesOn close first cs = .ok (more, rest)) : rest.length ≤ cs.length := by
  refine Nat.le_trans ?_ (length_skipSpace_le cs)
  unfold goesOn at h
  generalize skipSpace cs = cs at h ⊢
  rcases cs with _ | ⟨c, cs⟩
  · cases h
  dsimp only at h
  split at h
  · cases h
    exact Nat.le_refl _
  split at h
  · cases h
    exact Nat.le_refl _
  split at h
  · have hle := length_skipSpace_le cs
    generalize skipSpace cs = cs' at h hle
    rcases cs' with _ | ⟨c', cs'⟩
    · cases h
    dsimp only at h
    split at h
    · cases h
    · cases h
      exact Nat.le_succ_of_le hle
  · cases h

theorem length_lt_of_readMark {mark : Char} (h : readMark mark cs = .ok ((), rest)) :
    rest.length < cs.length := by
  refine Nat.lt_of_lt_of_le ?_ (length_skipSpace_le cs)
  unfold readMark at h
  generalize skipSpace cs = cs at h ⊢
  split at h
  · cases h
  · split at h <;> cases h
    exact Nat.lt_succ_self _

theorem length_lt_of_readKey (h : readKey skipString cs = .ok ((), rest)) :
    rest.length < cs.length := by
  unfold readKey at h
  split at h
  · exact Nat.lt_succ_of_lt (length_lt_of_skipStringRest h)
  · cases h

theorem length_of_nextIn {first more : Bool} {b : Bracket}
    (h : nextIn first b cs = .ok (more, rest)) :
    rest.length ≤ cs.length ∧ (more = false → rest.length < cs.length) := by
  cases b with
  | list =>
    obtain ⟨⟨more', r⟩, hmore, h⟩ := bind_eq_ok.1 h
    have hle := length_le_of_goesOn hmore
    cases more' with
    | true =>
      cases h
      exact ⟨hle, nofun⟩
    | false =>
      obtain ⟨⟨⟨⟩, r'⟩, hclose, h⟩ := bind_eq_ok.1 h
      cases h
      have hlt := (length_lt_of_readMark hclose).trans_le hle
      exact ⟨hlt.le, fun _ => hlt⟩
  | object =>
    obtain ⟨⟨more', r⟩, hmore, h⟩ := bind_eq_ok.1 h
    have hle := length_le_of_goesOn hmore
    cases more' with
    | true =>
      obtain ⟨⟨⟨⟩, r'⟩, hkey, h⟩ := bind_eq_ok.1 h
      obtain ⟨⟨⟨⟩, r''⟩, hcolon, h⟩ := bind_eq_ok.1 h
      cases h
      have hlt := (length_lt_of_readMark hcolon).trans (length_lt_of_readKey hkey)
      exact ⟨(hlt.trans_le hle).le, nofun⟩
    | false =>
      obtain ⟨⟨⟨⟩, r'⟩, hclose, h⟩ := bind_eq_ok.1 h
      cases h
      have hlt := (length_lt_of_readMark hclose).trans_le hle
      exact ⟨hlt.le, fun _ => hlt⟩

theorem skipOpenRest_nil (spine : List Char) (first : Bool) (cs : List Char) :
    skipOpenRest spine first [] cs = .ok ((), cs) := by
  cases spine <;> rfl

/-- In brackets the end of the text is a fault, whatever the spine. -/
theorem skipOpenRest_end (spine : List Char) (first : Bool) (b : Bracket) (outer : List Bracket) :
    skipOpenRest spine first (b :: outer) [] = .error .truncated := by
  cases spine with
  | nil => rfl
  | cons s spine => cases b <;> rfl

/-- Any spine that is long enough does. -/
theorem skipOpenRest_congr {spine spine' : List Char} (h : cs.length ≤ spine.length)
    (h' : cs.length ≤ spine'.length) (first : Bool) (brackets : List Bracket) :
    skipOpenRest spine first brackets cs = skipOpenRest spine' first brackets cs := by
  rcases brackets with _ | ⟨b, outer⟩
  · rw [skipOpenRest_nil, skipOpenRest_nil]
  induction spine generalizing cs spine' first b outer with
  | nil =>
    obtain rfl := List.length_eq_zero_iff.1 (Nat.le_zero.1 h)
    rw [skipOpenRest_end, skipOpenRest_end]
  | cons s spine ih =>
    rcases spine' with _ | ⟨s', spine'⟩
    · obtain rfl := List.length_eq_zero_iff.1 (Nat.le_zero.1 h')
      rw [skipOpenRest_end, skipOpenRest_end]
    have hrest : ∀ {r : List Char} (first : Bool) (brackets : List Bracket),
        r.length < cs.length →
          skipOpenRest spine first brackets r = skipOpenRest spine' first brackets r := by
      intro r first brackets hr
      rcases brackets with _ | ⟨b, outer⟩
      · rw [skipOpenRest_nil, skipOpenRest_nil]
      · exact ih (Nat.le_of_lt_succ (hr.trans_le h)) (Nat.le_of_lt_succ (hr.trans_le h')) first b
          outer
    rw [skipOpenRest, skipOpenRest]
    refine bind_congr_ok fun ⟨more, r⟩ hr => ?_
    obtain ⟨hle, hlt⟩ := length_of_nextIn hr
    cases more with
    | false => exact hrest false outer (hlt rfl)
    | true =>
      refine bind_congr_ok fun ⟨o, r'⟩ ho => ?_
      have hlt := (length_lt_of_skipHead ho).trans_le hle
      cases o with
      | none => exact hrest false (b :: outer) hlt
      | some inner => exact hrest true (inner :: b :: outer) hlt

/-- Skips a value, and what is left in the brackets around it. -/
def skipBefore (outer : List Bracket) (cs : List Char) : Except Fault (Unit × List Char) := do
  match ← skipHead cs with
  | (some b, cs) => skipOpen true (b :: outer) cs
  | (none, cs) => skipOpen false outer cs

theorem skipOpen_nil (first : Bool) (cs : List Char) : skipOpen first [] cs = .ok ((), cs) :=
  skipOpenRest_nil cs first cs

theorem skipOpen_cons (first : Bool) (b : Bracket) (outer : List Bracket) (cs : List Char) :
    skipOpen first (b :: outer) cs = nextIn first b cs >>= fun r =>
      if r.1 then skipBefore (b :: outer) r.2 else skipOpen false outer r.2 := by
  rcases cs with _ | ⟨c, cs⟩
  · rw [skipOpen, skipOpenRest_end]
    cases b <;> rfl
  rw [skipOpen, skipOpenRest]
  refine bind_congr_ok fun ⟨more, r⟩ hr => ?_
  obtain ⟨hle, hlt⟩ := length_of_nextIn hr
  cases more with
  | false => exact skipOpenRest_congr (Nat.le_of_lt_succ (hlt rfl)) (Nat.le_refl _) false outer
  | true =>
    refine bind_congr_ok fun ⟨o, r'⟩ ho => ?_
    have hlt := (length_lt_of_skipHead ho).trans_le hle
    cases o with
    | none => exact skipOpenRest_congr (Nat.le_of_lt_succ hlt) (Nat.le_refl _) false _
    | some inner => exact skipOpenRest_congr (Nat.le_of_lt_succ hlt) (Nat.le_refl _) true _

theorem skipValue_eq (cs : List Char) : skipValue cs = skipBefore [] cs := by
  refine bind_congr_ok fun ⟨o, r⟩ _ => ?_
  cases o with
  | none => exact (skipOpen_nil false r).symm
  | some b => rfl

/-! ## What can be read -/

/-- Where items and their closing bracket can be read, they are skipped as far. -/
theorem skipOpen_of_readItems {item : Read α}
    (hitem : ∀ {cs x rest} outer, item cs = .ok (x, rest) →
      skipBefore outer cs = skipOpen false outer rest)
    {spine r : List Char} {done items : List α} (h : readItems item spine done cs = .ok (items, r))
    (hclose : closeList r = .ok ((), rest)) (outer : List Bracket) :
    skipOpen done.isEmpty (.list :: outer) cs = skipOpen false outer rest := by
  induction spine generalizing done cs with
  | nil => cases h
  | cons c spine ih =>
    obtain ⟨⟨more, cs₁⟩, hmore, h⟩ := bind_eq_ok.1 h
    cases more with
    | false =>
      cases h
      have hnext : nextIn done.isEmpty .list cs = .ok (false, rest) :=
        bind_eq_ok.2 ⟨_, hmore, bind_eq_ok.2 ⟨_, hclose, rfl⟩⟩
      rw [skipOpen_cons, hnext]
      rfl
    | true =>
      obtain ⟨⟨x, cs₂⟩, hx, h⟩ := bind_eq_ok.1 h
      have hnext : nextIn done.isEmpty .list cs = .ok (true, cs₁) :=
        bind_eq_ok.2 ⟨_, hmore, rfl⟩
      rw [skipOpen_cons, hnext]
      exact (hitem (.list :: outer) hx).trans (ih h)

theorem skipString_of_readKey {k : String} (h : readKey readString cs = .ok (k, rest)) :
    readKey skipString cs = .ok ((), rest) := by
  unfold readKey at h ⊢
  split at h
  · exact skipString_of_readStringRest h
  · cases h

/-- Where entries and their closing brace can be read, they are skipped as far. -/
theorem skipOpen_of_readEntries {value : Read Json}
    (hvalue : ∀ {cs v rest} outer, value cs = .ok (v, rest) →
      skipBefore outer cs = skipOpen false outer rest)
    {spine r : List Char} {first : Bool} {entries es : List (String × Json)}
    (h : readEntries value spine first entries cs = .ok (es, r))
    (hclose : closeObject r = .ok ((), rest)) (outer : List Bracket) :
    skipOpen first (.object :: outer) cs = skipOpen false outer rest := by
  induction spine generalizing first entries cs with
  | nil => cases h
  | cons c spine ih =>
    obtain ⟨⟨key, cs₁⟩, hkey, h⟩ := bind_eq_ok.1 h
    obtain ⟨⟨more, cs₂⟩, hmore, hkey⟩ := bind_eq_ok.1 hkey
    cases more with
    | false =>
      cases hkey
      cases h
      have hnext : nextIn first .object cs = .ok (false, rest) :=
        bind_eq_ok.2 ⟨_, hmore, bind_eq_ok.2 ⟨_, hclose, rfl⟩⟩
      rw [skipOpen_cons, hnext]
      rfl
    | true =>
      obtain ⟨⟨k, _⟩, hk, hkey⟩ := bind_eq_ok.1 hkey
      cases hkey
      obtain ⟨⟨⟨⟩, cs₃⟩, hcolon, h⟩ := bind_eq_ok.1 h
      obtain ⟨⟨v, cs₄⟩, hv, h⟩ := bind_eq_ok.1 h
      have hnext : nextIn first .object cs = .ok (true, cs₃) :=
        bind_eq_ok.2 ⟨_, hmore, bind_eq_ok.2 ⟨_, skipString_of_readKey hk,
          bind_eq_ok.2 ⟨_, hcolon, rfl⟩⟩⟩
      rw [skipOpen_cons, hnext]
      exact (hvalue (.object :: outer) hv).trans (ih h)

/-- Whatever comes after a value that can be read is skipped from where the value ends. -/
theorem skipBefore_of_readValue {d : Nat} {v : Json} (h : readValue d cs = .ok (v, rest))
    (outer : List Bracket) : skipBefore outer cs = skipOpen false outer rest := by
  induction d using Nat.strongRecOn generalizing v cs rest outer with
  | _ d ih =>
    have hplain : ∀ {rest}, skipHead cs = .ok (none, rest) →
        skipBefore outer cs = skipOpen false outer rest := fun hhead => by
      rw [skipBefore, hhead]
      rfl
    have hopen : ∀ {b rest}, skipHead cs = .ok (some b, rest) →
        skipBefore outer cs = skipOpen true (b :: outer) rest := fun hhead => by
      rw [skipBefore, hhead]
      rfl
    unfold readValue at h
    split at h
    case h_1 => cases h
    case h_2 hcs | h_3 hcs | h_4 hcs =>
      obtain ⟨⟨⟨⟩, r⟩, hword, h⟩ := bind_eq_ok.1 h
      cases h
      refine hplain ?_
      rw [skipHead, hcs]
      exact mapRead_eq_ok.2 ⟨_, hword, rfl⟩
    case h_5 hcs =>
      obtain ⟨⟨s, r⟩, hs, h⟩ := bind_eq_ok.1 h
      cases h
      refine hplain ?_
      rw [skipHead, hcs]
      exact mapRead_eq_ok.2 ⟨_, skipString_of_readStringRest hs, rfl⟩
    case h_6 cs' hcs =>
      split at h
      · cases h
      rename_i d
      obtain ⟨⟨items, r⟩, hlist, h⟩ := bind_eq_ok.1 h
      cases h
      obtain ⟨⟨items', r'⟩, hitems, hlist⟩ := bind_eq_ok.1 hlist
      obtain ⟨⟨⟨⟩, r''⟩, hclose, hlist⟩ := bind_eq_ok.1 hlist
      cases hlist
      have hhead : skipHead cs = .ok (some .list, cs') := by
        rw [skipHead, hcs]
        rfl
      refine (hopen hhead).trans ?_
      exact skipOpen_of_readItems (fun outer hx => ih d (Nat.lt_succ_self d) hx outer) hitems
        hclose outer
    case h_7 cs' hcs =>
      split at h
      · cases h
      rename_i d
      obtain ⟨⟨entries, r⟩, hobject, h⟩ := bind_eq_ok.1 h
      cases h
      obtain ⟨⟨entries', r'⟩, hentries, hobject⟩ := bind_eq_ok.1 hobject
      obtain ⟨⟨⟨⟩, r''⟩, hclose, hobject⟩ := bind_eq_ok.1 hobject
      cases hobject
      have hhead : skipHead cs = .ok (some .object, cs') := by
        rw [skipHead, hcs]
        rfl
      refine (hopen hhead).trans ?_
      exact skipOpen_of_readEntries (fun outer hx => ih d (Nat.lt_succ_self d) hx outer) hentries
        hclose outer
    case h_8 hcs =>
      split at h
      · rename_i hc
        obtain ⟨⟨n, r⟩, hn, h⟩ := bind_eq_ok.1 h
        cases h
        refine hplain ?_
        rw [skipHead, hcs]
        simp only [hc, if_true]
        exact mapRead_eq_ok.2 ⟨_, skipNumber_of_readNumber hn, rfl⟩
      · cases h

/-- A value that can be read is skipped as far as it is read. -/
theorem skipValue_of_readValue {d : Nat} {v : Json} (h : readValue d cs = .ok (v, rest)) :
    skipValue cs = .ok ((), rest) := by
  rw [skipValue_eq, skipBefore_of_readValue h, skipOpen_nil]

/-- Half of a pair and a number beyond the range of doubles are skipped, though neither is read. -/
example : skipValue "[\"\\ud800\", \x7b\"x\": 1e999\x7d] ,".toList = .ok ((), [' ', ',']) :=
  rfl

/-- An entry of an object that is no field of a record is passed over if its value can be read. -/
theorem readFromObject_skip {σ : Type} {shape : Shape σ} {depth d : Nat} {c : Char}
    {spine cs' : List Char} {first : Bool} {seen : List String} {x : σ} {k : String} {v : Json}
    (hkey : nextKey first cs = .ok (some k, ':' :: cs'))
    (hk : shape.fields.find? (·.name = k) = none) (hv : readValue d cs' = .ok (v, rest)) :
    shape.readFromObject depth (c :: spine) first seen x cs
      = shape.readFromObject depth spine false seen x rest := by
  rw [Shape.readFromObject, hkey]
  simp only [bind, Except.bind, hk]
  show (skipValue cs').bind _ = _
  rw [skipValue_of_readValue hv]
  rfl

end SpriteCanvas.Json
