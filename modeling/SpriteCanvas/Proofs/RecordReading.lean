import SpriteCanvas.Proofs.Skipping
import SpriteCanvas.Proofs.ValueReading

/-!
# Records read back

A reader for one kind of value reads what is written of that kind.  An object reads as the record
that its entries bring about: a field puts in what it reads, and an entry that is no field is passed
over (`readRecord_chars`).
-/

namespace SpriteCanvas.Json

variable {α β σ : Type} {cs rest : List Char}

/-! ## Single values -/

theorem Reads.mapRead {read : Read α} {x : α} {v : Json} (h : Reads read x v) (f : α → β) :
    Reads (mapRead f read) (f x) v :=
  ⟨h.1, fun rest hrest => mapRead_eq_ok.2 ⟨x, h.2 rest hrest, rfl⟩⟩

theorem reads_readText (s : String) : Reads readText s (text s) :=
  ⟨⟨_, _, rfl, rfl, by decide⟩, fun rest _ => readText_chars s rest⟩

theorem reads_readOptionalText (s : Option String) :
    Reads readOptionalText s (s.elim null text) := by
  cases s with
  | none => exact ⟨⟨_, _, rfl, rfl, by decide⟩, fun rest _ => rfl⟩
  | some s =>
    refine ⟨⟨_, _, rfl, rfl, by decide⟩, fun rest _ => ?_⟩
    have hread := readText_chars s rest
    rw [Option.elim_some]
    rw [chars, stringChars_append] at *
    show (readText _ >>= _) = _
    rw [hread]
    rfl

theorem reads_readFlag (b : Bool) : Reads readFlag b (bool b) := by
  cases b <;> exact ⟨⟨_, _, rfl, rfl, by decide⟩, fun rest _ => rfl⟩

theorem reads_readFloat {x : Float} (hx : x.isFinite = true)
    (h : DoublesReadBack (ofFloat x).numbers) : Reads readFloat x (ofFloat x) := by
  have hv : ofFloat x = number (.double x hx) := dif_pos hx
  rw [hv] at h ⊢
  have hback := h.readsBack List.mem_cons_self
  refine ⟨beginsValue_chars h, fun rest hrest => ?_⟩
  have hread := readNumber_append hback hrest
  obtain ⟨c, cs, hcs, hc⟩ := head_of_readNumber hback
  have hskip := ((beginsValue_of_number hc cs).append rest).skipSpace
  rw [hcs, List.cons_append] at hread
  rw [List.cons_append] at hskip
  rw [chars, hcs, List.cons_append, readFloat, hskip]
  show (if c = '-' || c.isDigit then _ else _) = _
  rw [if_pos (by simpa using hc), hread]
  rfl

/-- The name of a variant reads as the variant. -/
theorem reads_readVariant {first second : String × α} {name : String} {x : α} (depth : Nat)
    (h : variantNamed first second name = .ok x) :
    Reads (readVariant first second depth) x (text name) := by
  refine ⟨⟨_, _, rfl, rfl, by decide⟩, fun rest _ => ?_⟩
  rw [chars, stringChars_append]
  show (readString _ >>= _) = _
  rw [readString_chars]
  show (variantNamed first second name >>= _) = _
  rw [h]
  rfl

/-! ## Records -/

/-- What an entry does to a record of which some fields have been seen: it is a field not seen yet,
and what that reads is put in, or it is no field, and then it only has to be readable. -/
inductive ReadsEntry (shape : Shape σ) (depth : Nat) (seen : List String) (x : σ) :
    String × Json → List String → σ → Prop
  | field {k : String} {v : Json} {f : Field σ} {put : σ → σ}
      (hf : shape.fields.find? (·.name = k) = some f) (hseen : seen.contains k = false)
      (hread : Reads (f.read depth) put v) :
      ReadsEntry shape depth seen x (k, v) (k :: seen) (put x)
  | other {k : String} {v w : Json} {d : Nat} (hk : shape.fields.find? (·.name = k) = none)
      (hread : Reads (readValue d) w v) : ReadsEntry shape depth seen x (k, v) seen x

/-- What the entries of an object do to a record, one after the other; no field lacks in the end. -/
inductive ReadsEntries (shape : Shape σ) (depth : Nat) :
    List String → σ → List (String × Json) → σ → Prop
  | nil {seen : List String} {x : σ} (hall : shape.firstMissing? seen = none) :
      ReadsEntries shape depth seen x [] x
  | cons {seen seen' : List String} {x x' y : σ} {e : String × Json} {es : List (String × Json)}
      (he : ReadsEntry shape depth seen x e seen' x')
      (hes : ReadsEntries shape depth seen' x' es y) :
      ReadsEntries shape depth seen x (e :: es) y

section Records

variable {shape : Shape σ} {depth : Nat} {seen seen' : List String} {x x' y : σ} {k : String}
  {v : Json} {es : List (String × Json)}

/-- An object that lacks no field may end. -/
theorem readFromObject_end (h : shape.firstMissing? seen = none) (c : Char) (spine : List Char)
    (first : Bool) (x : σ) (rest : List Char) :
    shape.readFromObject depth (c :: spine) first seen x ('\x7d' :: rest)
      = .ok (x, '\x7d' :: rest) := by
  have hkey : nextKey first ('\x7d' :: rest) = .ok (none, '\x7d' :: rest) := rfl
  rw [Shape.readFromObject, hkey]
  simp only [bind, Except.bind, h]
  rfl

/-- An entry that is ahead is read. -/
theorem readFromObject_entry (h : ReadsEntry shape depth seen x (k, v) seen' x') {c : Char}
    {spine : List Char} {first : Bool}
    (hkey : nextKey first cs = .ok (some k, ':' :: (v.chars ++ rest))) (hrest : EndsNumber rest) :
    shape.readFromObject depth (c :: spine) first seen x cs
      = shape.readFromObject depth spine false seen' x' rest := by
  cases h with
  | field hf hseen hread => exact readFromObject_step hkey hf hseen (hread.2 rest hrest)
  | other hk hread => exact readFromObject_skip hkey hk (hread.2 rest hrest)

theorem readFromObject_chars (h : ReadsEntries shape depth seen x es y) {spine : List Char}
    (hspine : es.length < spine.length) :
    shape.readFromObject depth spine false seen x (entriesChars es ++ rest)
      = .ok (y, '\x7d' :: rest) := by
  induction h generalizing spine with
  | nil hall =>
    rcases spine with _ | ⟨c, spine⟩
    · cases hspine
    · exact readFromObject_end hall c spine false _ rest
  | @cons seen seen' x x' y e es he _ ih =>
    obtain ⟨k, v⟩ := e
    rcases spine with _ | ⟨c, spine⟩
    · cases hspine
    · rw [entriesChars, List.cons_append, List.append_assoc, List.cons_append, List.append_assoc,
        readFromObject_entry he (nextKey_next k _) (endsNumber_entriesChars _ _)]
      exact ih (Nat.lt_of_succ_lt_succ hspine)

/-- An object reads as the record that its entries bring about. -/
theorem readRecord_chars (h : ReadsEntries shape depth [] shape.initial es y)
    (rest : List Char) :
    readRecord shape (depth + 1) ((object es).chars ++ rest) = .ok (y, rest) := by
  suffices H : ∃ cs, (object es).chars ++ rest = '\x7b' :: cs
      ∧ shape.readFromObject depth cs true [] shape.initial cs = .ok (y, '\x7d' :: rest) by
    obtain ⟨cs, hcs, hobject⟩ := H
    rw [hcs]
    show (shape.readFromObject depth cs true [] shape.initial cs >>= _) = _
    rw [hobject]
    rfl
  cases h with
  | nil hall => exact ⟨'\x7d' :: rest, rfl, readFromObject_end hall _ _ true _ rest⟩
  | @cons _ seen' _ x' _ e es he hes =>
    obtain ⟨k, v⟩ := e
    refine ⟨stringChars k ++ ':' :: (v.chars ++ (entriesChars es ++ rest)), by simp [chars], ?_⟩
    have hkey := nextKey_first k (':' :: (v.chars ++ (entriesChars es ++ rest)))
    have hspine : es.length < ((k.toList.flatMap stringChar)
        ++ '"' :: ':' :: (v.chars ++ (entriesChars es ++ rest))).length := by
      have hlength := length_lt_entriesChars es
      simp only [List.length_append, List.length_cons]
      omega
    rw [stringChars_append] at hkey ⊢
    rw [readFromObject_entry he hkey (endsNumber_entriesChars _ _),
      readFromObject_chars hes hspine]

theorem reads_readRecord (h : ReadsEntries shape depth [] shape.initial es y) :
    Reads (readRecord shape (depth + 1)) y (object es) := by
  refine ⟨?_, fun rest _ => readRecord_chars h rest⟩
  cases es <;> exact ⟨_, _, rfl, rfl, by decide⟩

end Records

end SpriteCanvas.Json
