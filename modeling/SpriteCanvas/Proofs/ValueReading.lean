import SpriteCanvas.Proofs.NumberReading
import SpriteCanvas.Proofs.StringReading

/-!
# Values read back

What is read nests no deeper than allowed, and the keys of its objects ascend (`fits_of_readValue`).
A value of this kind reads back from its text, if every double in it does (`readValue_chars`).
-/

namespace SpriteCanvas.Json

/-! ## Values that fit -/

/-- The entries of an object in ascending order of their keys. -/
abbrev Ascending (entries : List (String × Json)) : Prop :=
  entries.Pairwise fun a b => a.1 < b.1

/-- A value whose brackets nest at most so deep and whose objects have ascending keys. -/
inductive Fits : Nat → Json → Prop
  | null {d : Nat} : Fits d null
  | bool {d : Nat} (b : Bool) : Fits d (bool b)
  | number {d : Nat} (n : Number) : Fits d (number n)
  | text {d : Nat} (s : String) : Fits d (text s)
  | list {d : Nat} {items : List Json} (h : ∀ v ∈ items, Fits d v) : Fits (d + 1) (list items)
  | object {d : Nat} {entries : List (String × Json)} (ha : Ascending entries)
      (h : ∀ e ∈ entries, Fits d e.2) : Fits (d + 1) (object entries)

mutual

/-- What holds of a value if it holds of all that it is made of holds of every value. -/
theorem induction {P : Json → Prop} (null : P null) (bool : ∀ b, P (bool b))
    (number : ∀ n, P (number n)) (text : ∀ s, P (text s))
    (list : ∀ items, (∀ v ∈ items, P v) → P (list items))
    (object : ∀ entries, (∀ e ∈ entries, P e.2) → P (object entries)) : ∀ v, P v
  | .null => null
  | .bool b => bool b
  | .number n => number n
  | .text s => text s
  | .list items => list items (forall_items null bool number text list object items)
  | .object entries => object entries (forall_entries null bool number text list object entries)

theorem forall_items {P : Json → Prop} (null : P null) (bool : ∀ b, P (bool b))
    (number : ∀ n, P (number n)) (text : ∀ s, P (text s))
    (list : ∀ items, (∀ v ∈ items, P v) → P (list items))
    (object : ∀ entries, (∀ e ∈ entries, P e.2) → P (object entries)) :
    ∀ (items : List Json), ∀ v ∈ items, P v
  | [], _, h => absurd h List.not_mem_nil
  | w :: items, v, h => (List.mem_cons.1 h).elim
    (fun hv => hv ▸ induction null bool number text list object w)
    (forall_items null bool number text list object items v)

theorem forall_entries {P : Json → Prop} (null : P null) (bool : ∀ b, P (bool b))
    (number : ∀ n, P (number n)) (text : ∀ s, P (text s))
    (list : ∀ items, (∀ v ∈ items, P v) → P (list items))
    (object : ∀ entries, (∀ e ∈ entries, P e.2) → P (object entries)) :
    ∀ (entries : List (String × Json)), ∀ e ∈ entries, P e.2
  | [], _, h => absurd h List.not_mem_nil
  | (_, v) :: entries, e, h => (List.mem_cons.1 h).elim
    (fun he => he ▸ induction null bool number text list object v)
    (forall_entries null bool number text list object entries e)

end

variable {k : String} {v : Json} {entries : List (String × Json)} {d : Nat}

theorem mem_insert {e : String × Json} (h : e ∈ insert k v entries) : e = (k, v) ∨ e ∈ entries := by
  induction entries with
  | nil => exact .inl (List.mem_singleton.1 h)
  | cons e' rest ih =>
    obtain ⟨l, w⟩ := e'
    unfold insert at h
    split at h
    · exact List.mem_cons.1 h
    · split at h
      · exact (List.mem_cons.1 h).imp_right (List.mem_cons_of_mem _)
      · rcases List.mem_cons.1 h with rfl | h
        · exact .inr List.mem_cons_self
        · exact (ih h).imp_right (List.mem_cons_of_mem _)

theorem Ascending.insert (h : Ascending entries) : Ascending (insert k v entries) := by
  induction entries with
  | nil => exact List.pairwise_singleton _ _
  | cons e rest ih =>
    obtain ⟨l, w⟩ := e
    obtain ⟨hhead, hrest⟩ := List.pairwise_cons.1 h
    unfold Json.insert
    split
    · rename_i hlt
      refine List.pairwise_cons.2 ⟨fun e he => ?_, h⟩
      rcases List.mem_cons.1 he with rfl | he
      · exact hlt
      · exact String.lt_trans hlt (hhead e he)
    · rename_i hge
      split
      · rename_i heq
        exact List.pairwise_cons.2 ⟨fun e he => heq ▸ hhead e he, hrest⟩
      · rename_i hne
        refine List.pairwise_cons.2 ⟨fun e he => ?_, ih hrest⟩
        rcases mem_insert he with rfl | he
        · show l < k
          grind
        · exact hhead e he

/-- A key behind all others is put at the end. -/
theorem insert_last (h : ∀ e ∈ entries, e.1 < k) : insert k v entries = entries ++ [(k, v)] := by
  induction entries with
  | nil => rfl
  | cons e rest ih =>
    obtain ⟨l, w⟩ := e
    have hl : l < k := h _ List.mem_cons_self
    rw [insert, if_neg (by grind), if_neg (by grind),
      ih fun e he => h e (List.mem_cons_of_mem _ he)]
    rfl

section Reading

variable {cs rest spine : List Char} {read : Read Json}

theorem fits_of_readEntries (hread : ∀ {cs v rest}, read cs = .ok (v, rest) → v.Fits d)
    {first : Bool} {es : List (String × Json)} (ha : Ascending entries)
    (hd : ∀ e ∈ entries, e.2.Fits d)
    (h : readEntries read spine first entries cs = .ok (es, rest)) :
    Ascending es ∧ ∀ e ∈ es, e.2.Fits d := by
  induction spine generalizing first entries cs with
  | nil => cases h
  | cons c spine ih =>
    obtain ⟨⟨key, cs'⟩, -, h⟩ := bind_eq_ok.1 h
    cases key with
    | none =>
      cases h
      exact ⟨ha, hd⟩
    | some k =>
      obtain ⟨⟨_, _⟩, -, h⟩ := bind_eq_ok.1 h
      obtain ⟨⟨v, cs''⟩, hv, h⟩ := bind_eq_ok.1 h
      refine ih ha.insert (fun e he => ?_) h
      rcases mem_insert he with rfl | he
      · exact hread hv
      · exact hd e he

/-- What is read nests no deeper than was allowed, and its keys ascend. -/
theorem fits_of_readValue (h : readValue d cs = .ok (v, rest)) : v.Fits d := by
  induction d using Nat.strongRecOn generalizing cs v rest with
  | _ d ih =>
    unfold readValue at h
    split at h
    · cases h
    · obtain ⟨_, -, h⟩ := bind_eq_ok.1 h
      cases h
      exact .null
    · obtain ⟨_, -, h⟩ := bind_eq_ok.1 h
      cases h
      exact .bool true
    · obtain ⟨_, -, h⟩ := bind_eq_ok.1 h
      cases h
      exact .bool false
    · obtain ⟨_, -, h⟩ := bind_eq_ok.1 h
      cases h
      exact .text _
    · split at h
      · cases h
      · rename_i d
        obtain ⟨⟨items, _⟩, hlist, h⟩ := bind_eq_ok.1 h
        cases h
        exact .list (forall_of_readList (ih d (Nat.lt_succ_self d)) hlist)
    · split at h
      · cases h
      · rename_i d
        obtain ⟨⟨entries, _⟩, hobject, h⟩ := bind_eq_ok.1 h
        cases h
        obtain ⟨⟨_, _⟩, hentries, hobject⟩ := bind_eq_ok.1 hobject
        obtain ⟨_, -, hobject⟩ := bind_eq_ok.1 hobject
        cases hobject
        obtain ⟨ha, hd⟩ := fits_of_readEntries (ih d (Nat.lt_succ_self d)) List.Pairwise.nil
          (List.forall_mem_nil _) hentries
        exact .object ha hd
    · split at h
      · obtain ⟨_, -, h⟩ := bind_eq_ok.1 h
        cases h
        exact .number _
      · cases h

end Reading

/-! ## Reading what was written -/

mutual

/-- The numbers in a value, in order. -/
def numbers : Json → List Number
  | number n => [n]
  | list items => itemsNumbers items
  | object entries => entriesNumbers entries
  | null | bool _ | text _ => []

/-- The numbers in the items of a list. -/
def itemsNumbers : List Json → List Number
  | [] => []
  | v :: vs => numbers v ++ itemsNumbers vs

/-- The numbers in the entries of an object. -/
def entriesNumbers : List (String × Json) → List Number
  | [] => []
  | (_, v) :: es => numbers v ++ entriesNumbers es

end

/-- Every double in a value reads back from its text. -/
def DoublesReadBack (ns : List Number) : Prop :=
  ∀ x h, .double x h ∈ ns → (Number.double x h).ReadsBack

theorem DoublesReadBack.readsBack {ns : List Number} (h : DoublesReadBack ns) {n : Number}
    (hn : n ∈ ns) : n.ReadsBack := by
  cases n with
  | whole k hk => exact Number.readsBack_whole k hk
  | double x hx => exact h x hx hn

theorem mem_itemsNumbers {n : Number} {items : List Json} (hv : v ∈ items) (hn : n ∈ v.numbers) :
    n ∈ itemsNumbers items := by
  induction items with
  | nil => cases hv
  | cons w items ih =>
    rw [itemsNumbers, List.mem_append]
    exact (List.mem_cons.1 hv).imp (fun (h : v = w) => h ▸ hn) ih

theorem mem_entriesNumbers {n : Number} {e : String × Json} (he : e ∈ entries)
    (hn : n ∈ e.2.numbers) : n ∈ entriesNumbers entries := by
  induction entries with
  | nil => cases he
  | cons e' entries ih =>
    rw [entriesNumbers, List.mem_append]
    exact (List.mem_cons.1 he).imp (fun (h : e = e') => h ▸ hn) ih

theorem DoublesReadBack.of_mem_items {items : List Json}
    (h : DoublesReadBack (list items).numbers) (hv : v ∈ items) : DoublesReadBack v.numbers :=
  fun x hx hn => h x hx (mem_itemsNumbers hv hn)

theorem DoublesReadBack.of_mem_entries (h : DoublesReadBack (object entries).numbers)
    {e : String × Json} (he : e ∈ entries) : DoublesReadBack e.2.numbers :=
  fun x hx hn => h x hx (mem_entriesNumbers he hn)

section Writing

variable {rest spine : List Char}

/-- What a value can begin with. -/
def BeginsValue (cs : List Char) : Prop :=
  ∃ c cs', cs = c :: cs' ∧ isSpace c = false ∧ c ≠ ']'

theorem BeginsValue.append {cs : List Char} (h : BeginsValue cs) (rest : List Char) :
    BeginsValue (cs ++ rest) := by
  obtain ⟨c, cs', rfl, hc⟩ := h
  exact ⟨c, cs' ++ rest, rfl, hc⟩

theorem BeginsValue.skipSpace {cs : List Char} (h : BeginsValue cs) : skipSpace cs = cs := by
  obtain ⟨c, cs', rfl, hc, -⟩ := h
  simp [Json.skipSpace, hc]

theorem beginsValue_of_number {c : Char} (h : c = '-' ∨ c.isDigit = true) (cs : List Char) :
    BeginsValue (c :: cs) := by
  refine ⟨c, cs, rfl, ?_, ?_⟩
  · unfold isSpace
    simp only [Bool.or_eq_false_iff, decide_eq_false_iff_not]
    refine ⟨⟨⟨?_, ?_⟩, ?_⟩, ?_⟩ <;> rintro rfl <;> revert h <;> decide
  · rintro rfl
    revert h
    decide

theorem beginsValue_chars (h : DoublesReadBack v.numbers) : BeginsValue v.chars := by
  cases v with
  | null => exact ⟨_, _, rfl, rfl, by decide⟩
  | bool b => cases b <;> exact ⟨_, _, rfl, rfl, by decide⟩
  | number n =>
    obtain ⟨c, cs, hcs, hc⟩ := head_of_readNumber (h.readsBack List.mem_cons_self)
    show BeginsValue n.chars
    exact hcs ▸ beginsValue_of_number hc cs
  | text s => exact ⟨_, _, rfl, rfl, by decide⟩
  | list items => cases items <;> exact ⟨_, _, rfl, rfl, by decide⟩
  | object entries => rcases entries with _ | ⟨⟨k, v⟩, es⟩ <;> exact ⟨_, _, rfl, rfl, by decide⟩

theorem readValue_of_readNumber {cs : List Char} {n : Number} (h : readNumber cs = .ok (n, []))
    (hrest : EndsNumber rest) : readValue d (cs ++ rest) = .ok (.number n, rest) := by
  have hread := readNumber_append h hrest
  obtain ⟨c, cs, hcs, hc⟩ := head_of_readNumber h
  have hskip := ((beginsValue_of_number hc cs).append rest).skipSpace
  rw [hcs] at hread ⊢
  rw [List.cons_append] at hread hskip ⊢
  unfold readValue
  rw [hskip]
  split
  case h_8 =>
    rename_i heq
    obtain ⟨rfl, rfl⟩ := List.cons.inj heq
    rw [if_pos (by simpa using hc), hread]
    rfl
  case h_1 =>
    rename_i heq
    cases heq
  all_goals
    rename_i heq
    obtain ⟨rfl, -⟩ := List.cons.inj heq
    exact absurd hc (by decide)

/-! ### Lists -/

theorem moreItems_first {cs : List Char} (h : BeginsValue cs) :
    moreItems true cs = .ok (true, cs) := by
  have hskip := h.skipSpace
  obtain ⟨c, cs, rfl, -, hc⟩ := h
  rw [moreItems, goesOn, hskip]
  show (if c = ']' then _ else if true = true then _ else _) = _
  rw [if_neg hc, if_pos rfl]

theorem moreItems_next {cs : List Char} (h : BeginsValue cs) :
    moreItems false (',' :: cs) = .ok (true, cs) := by
  have hskip := h.skipSpace
  obtain ⟨c, cs, rfl, -, hc⟩ := h
  have hcomma : skipSpace (',' :: c :: cs) = ',' :: c :: cs := rfl
  simp only [moreItems, goesOn, hcomma, hskip, if_neg hc]
  rfl

/-- An item that is ahead is read. -/
theorem readItems_step {α : Type} {item : Read α} {x : α} {c : Char} {cs cs' cs'' : List Char}
    {done : List α} (hmore : moreItems done.isEmpty cs = .ok (true, cs'))
    (hx : item cs' = .ok (x, cs'')) :
    readItems item (c :: spine) done cs = readItems item spine (x :: done) cs'' := by
  rw [readItems, hmore]
  show (item cs' >>= _) = _
  rw [hx]
  rfl

theorem endsNumber_itemsChars (vs : List Json) (rest : List Char) :
    EndsNumber (itemsChars vs ++ rest) := by
  cases vs with
  | nil =>
    rw [itemsChars]
    exact ⟨rfl, by decide, by decide, by decide⟩
  | cons v vs =>
    rw [itemsChars]
    exact ⟨rfl, by decide, by decide, by decide⟩

theorem length_lt_itemsChars (vs : List Json) : vs.length < (itemsChars vs).length := by
  induction vs with
  | nil => simp [itemsChars]
  | cons v vs ih =>
    simp only [itemsChars, List.length_cons, List.length_append]
    omega

/-! ### Objects -/

theorem nextKey_first (s : String) (rest : List Char) :
    nextKey true (stringChars s ++ rest) = .ok (some s, rest) := by
  rw [stringChars_append]
  show (readString _ >>= _) = _
  rw [readString_chars]
  rfl

theorem nextKey_next (s : String) (rest : List Char) :
    nextKey false (',' :: (stringChars s ++ rest)) = .ok (some s, rest) := by
  rw [stringChars_append]
  show (readString _ >>= _) = _
  rw [readString_chars]
  rfl

/-- An entry that is ahead is read. -/
theorem readEntries_step {value : Read Json} {first : Bool} {c : Char} {cs cs' cs'' : List Char}
    (hkey : nextKey first cs = .ok (some k, ':' :: cs'))
    (hv : value cs' = .ok (v, cs'')) :
    readEntries value (c :: spine) first entries cs
      = readEntries value spine false (insert k v entries) cs'' := by
  rw [readEntries, hkey]
  show (value cs' >>= _) = _
  rw [hv]
  rfl

theorem endsNumber_entriesChars (es : List (String × Json)) (rest : List Char) :
    EndsNumber (entriesChars es ++ rest) := by
  rcases es with _ | ⟨⟨k, v⟩, es⟩
  · rw [entriesChars]
    exact ⟨rfl, by decide, by decide, by decide⟩
  · rw [entriesChars]
    exact ⟨rfl, by decide, by decide, by decide⟩

theorem length_lt_entriesChars (es : List (String × Json)) :
    es.length < (entriesChars es).length := by
  induction es with
  | nil => simp [entriesChars]
  | cons e es ih =>
    simp only [entriesChars, List.length_cons, List.length_append]
    omega

/-! ### Values -/

/-- A reader gives `x` for the text of a value, whatever comes after it. -/
def Reads {α : Type} (item : Read α) (x : α) (v : Json) : Prop :=
  BeginsValue v.chars ∧ ∀ rest, EndsNumber rest → item (v.chars ++ rest) = .ok (x, rest)

section Lists

variable {α β : Type} {item : Read α} {g : β → α} {f : β → Json}

theorem readItems_chars {xs : List β} (h : ∀ x ∈ xs, Reads item (g x) (f x)) {done : List α}
    (hdone : done ≠ []) (hspine : xs.length < spine.length) :
    readItems item spine done (itemsChars (xs.map f) ++ rest)
      = .ok (done.reverse ++ xs.map g, ']' :: rest) := by
  induction xs generalizing spine done with
  | nil =>
    rcases spine with _ | ⟨c, spine⟩
    · cases hspine
    · rw [List.map_nil, List.map_nil, itemsChars, List.append_nil]
      rfl
  | cons x xs ih =>
    rcases spine with _ | ⟨c, spine⟩
    · cases hspine
    · obtain ⟨⟨hbegin, hread⟩, hrest⟩ := List.forall_mem_cons.1 h
      have hmore : moreItems done.isEmpty
          (',' :: ((f x).chars ++ (itemsChars (xs.map f) ++ rest)))
          = .ok (true, (f x).chars ++ (itemsChars (xs.map f) ++ rest)) := by
        rw [List.isEmpty_eq_false_iff.2 hdone]
        exact moreItems_next (hbegin.append _)
      rw [List.map_cons, itemsChars, List.cons_append, List.append_assoc,
        readItems_step hmore (hread _ (endsNumber_itemsChars _ _)),
        ih hrest (List.cons_ne_nil _ _) (Nat.lt_of_succ_lt_succ hspine)]
      simp

/-- The items of a list are read if each of them is. -/
theorem readList_chars {xs : List β} (h : ∀ x ∈ xs, Reads item (g x) (f x)) (rest : List Char) :
    ∃ cs, (list (xs.map f)).chars ++ rest = '[' :: cs
      ∧ readList item cs = .ok (xs.map g, rest) := by
  cases xs with
  | nil => exact ⟨']' :: rest, rfl, rfl⟩
  | cons x xs =>
    obtain ⟨⟨hbegin, hread⟩, hrest⟩ := List.forall_mem_cons.1 h
    have hbegin' := hbegin.append (itemsChars (xs.map f) ++ rest)
    have hread' := hread _ (endsNumber_itemsChars (xs.map f) rest)
    have hlength := length_lt_itemsChars (xs.map f)
    refine ⟨(f x).chars ++ (itemsChars (xs.map f) ++ rest), by simp [chars], ?_⟩
    obtain ⟨c, cs, hcs, -⟩ := hbegin
    rw [hcs, List.cons_append] at hbegin' hread' ⊢
    have hmore : moreItems ([] : List α).isEmpty _ = _ := moreItems_first hbegin'
    have hspine : xs.length < (cs ++ (itemsChars (xs.map f) ++ rest)).length := by
      rw [List.length_map] at hlength
      simp only [List.length_append]
      omega
    rw [readList, readItems_step hmore hread',
      readItems_chars hrest (List.cons_ne_nil _ _) hspine]
    rfl

end Lists

theorem readEntries_chars {value : Read Json} {es : List (String × Json)}
    (h : ∀ e ∈ es, Reads value e.2 e.2) (ha : Ascending (entries ++ es))
    (hspine : es.length < spine.length) :
    readEntries value spine false entries (entriesChars es ++ rest)
      = .ok (entries ++ es, '\x7d' :: rest) := by
  induction es generalizing spine entries with
  | nil =>
    rcases spine with _ | ⟨c, spine⟩
    · cases hspine
    · rw [entriesChars, List.append_nil]
      rfl
  | cons e es ih =>
    obtain ⟨k, v⟩ := e
    rcases spine with _ | ⟨c, spine⟩
    · cases hspine
    · obtain ⟨⟨-, hread⟩, hrest⟩ := List.forall_mem_cons.1 h
      have hlast : ∀ e ∈ entries, e.1 < k := fun e he =>
        (List.pairwise_append.1 ha).2.2 e he _ List.mem_cons_self
      rw [List.append_cons] at ha
      rw [entriesChars, List.cons_append, List.append_assoc, List.cons_append, List.append_assoc,
        readEntries_step (nextKey_next k _) (hread _ (endsNumber_entriesChars _ _)),
        insert_last hlast, ih hrest ha (Nat.lt_of_succ_lt_succ hspine), ← List.append_cons]

/-- The entries of an object with ascending keys are read if each of them is. -/
theorem readObject_chars {value : Read Json} {es : List (String × Json)}
    (h : ∀ e ∈ es, Reads value e.2 e.2) (ha : Ascending es) (rest : List Char) :
    ∃ cs, (object es).chars ++ rest = '\x7b' :: cs ∧ readObject value cs = .ok (es, rest) := by
  rcases es with _ | ⟨⟨k, v⟩, es⟩
  · exact ⟨'\x7d' :: rest, rfl, rfl⟩
  · obtain ⟨⟨-, hread⟩, hrest⟩ := List.forall_mem_cons.1 h
    have hlength := length_lt_entriesChars es
    refine ⟨stringChars k ++ ':' :: (v.chars ++ (entriesChars es ++ rest)), by simp [chars], ?_⟩
    have hkey := nextKey_first k (':' :: (v.chars ++ (entriesChars es ++ rest)))
    have hspine : es.length < ((k.toList.flatMap stringChar)
        ++ '"' :: ':' :: (v.chars ++ (entriesChars es ++ rest))).length := by
      simp only [List.length_append, List.length_cons]
      omega
    rw [stringChars_append] at hkey ⊢
    rw [readObject, readEntries_step hkey (hread _ (endsNumber_entriesChars _ _)), insert,
      readEntries_chars hrest ha hspine]
    rfl

/-- A value that fits reads back from its text, if its doubles do. -/
theorem reads_readValue (hfit : v.Fits d) (h : DoublesReadBack v.numbers) :
    Reads (readValue d) v v := by
  refine ⟨beginsValue_chars h, ?_⟩
  induction v using Json.induction generalizing d with
  | null =>
    intro rest _
    rw [chars, readValue.eq_def]
    rfl
  | bool b =>
    intro rest _
    cases b <;> rw [chars, readValue.eq_def] <;> rfl
  | number n =>
    exact fun rest hrest => readValue_of_readNumber (h.readsBack List.mem_cons_self) hrest
  | text s =>
    intro rest _
    rw [chars, stringChars_append, readValue.eq_def]
    show (readString _ >>= _) = _
    rw [readString_chars]
    rfl
  | list items ih =>
    intro rest _
    cases hfit with
    | list hitems =>
      rename_i d
      have hreads : ∀ v ∈ items, Reads (readValue d) (id v) (id v) := fun v hv => by
        have hd := h.of_mem_items hv
        exact ⟨beginsValue_chars hd, ih v hv (hitems v hv) hd⟩
      obtain ⟨cs, hcs, hlist⟩ := readList_chars hreads rest
      rw [List.map_id] at hcs hlist
      rw [hcs]
      show (readList (readValue d) cs >>= _) = _
      rw [hlist]
      rfl
  | object entries ih =>
    intro rest _
    cases hfit with
    | object ha hentries =>
      rename_i d
      have hreads : ∀ e ∈ entries, Reads (readValue d) e.2 e.2 := fun e he => by
        have hd := h.of_mem_entries he
        exact ⟨beginsValue_chars hd, ih e he (hentries e he) hd⟩
      obtain ⟨cs, hcs, hobject⟩ := readObject_chars hreads ha rest
      rw [hcs]
      show (readObject (readValue d) cs >>= _) = _
      rw [hobject]
      rfl

/-! ### Records -/

/-- A field that is ahead in an object is read. -/
theorem readFromObject_step {σ : Type} {shape : Shape σ} {depth : Nat} {c : Char}
    {spine cs cs' cs'' : List Char} {first : Bool} {seen : List String} {x : σ} {k : String}
    {f : Json.Field σ} {put : σ → σ} (hkey : nextKey first cs = .ok (some k, ':' :: cs'))
    (hf : shape.fields.find? (·.name = k) = some f) (hseen : seen.contains k = false)
    (hread : f.read depth cs' = .ok (put, cs'')) :
    shape.readFromObject depth (c :: spine) first seen x cs
      = shape.readFromObject depth spine false (k :: seen) (put x) cs'' := by
  rw [Shape.readFromObject, hkey]
  simp only [bind, Except.bind, hf, hseen]
  show (f.read depth cs').bind _ = _
  rw [hread]
  rfl

theorem readText_chars (s : String) (rest : List Char) :
    readText (stringChars s ++ rest) = .ok (s, rest) := by
  rw [stringChars_append]
  exact readString_chars s rest

end Writing

end SpriteCanvas.Json
