import SpriteCanvas.Proofs.Literals
import SpriteCanvas.Proofs.Reload

/-!
# Numbers and texts of numbers

A numeric parameter holds a number, or the text of one with white space around it or not.  A command
depends on the parameter through the number in it (`Command.ofNamed_put`), so a number and its
literal as a text make the same command (`Command.literals_read_alike`).
-/

namespace SpriteCanvas

/-! ## White space around a literal -/

theorem Text.isBlank_of_isDigit {c : Char} (hc : c.isDigit = true) : isBlank c = false := by
  simp only [Char.isDigit, Bool.and_eq_true, decide_eq_true_eq] at hc
  have hlow : 48 ≤ c.toNat := hc.1
  have hhigh : c.toNat ≤ 57 := hc.2
  simp only [isBlank, blankRanges, List.any_cons, List.any_nil, Bool.or_false, Bool.or_eq_false_iff,
    Bool.and_eq_false_iff, decide_eq_false_iff_not]
  omega

/-- No character of a literal is white space. -/
theorem Literal.isBlank_chars (l : Literal) : ∀ c ∈ l.chars, Text.isBlank c = false := by
  intro c hc
  have hdigit : ∀ {ds : List Char}, (∀ d ∈ ds, d.isDigit = true) → c ∈ ds →
      Text.isBlank c = false := fun hds hmem => Text.isBlank_of_isDigit (hds c hmem)
  have hscale : c ∈ l.scale.elim [] Scale.chars → Text.isBlank c = false := by
    cases l.scale with
    | none => exact fun h => absurd h List.not_mem_nil
    | some s =>
      intro h
      rcases List.mem_cons.1 h with rfl | h
      · rcases s.isMark with h | h <;> rw [h] <;> rfl
      · rcases List.mem_append.1 h with h | h
        · rcases s.isSign with hs | hs | hs <;> rw [hs] at h
          · cases h
          · rw [List.mem_singleton.1 h]
            rfl
          · rw [List.mem_singleton.1 h]
            rfl
        · exact hdigit s.isDigit h
  rcases List.mem_append.1 hc with h | h
  · split at h
    · rw [List.mem_singleton.1 h]
      rfl
    · cases h
  · rcases List.mem_append.1 h with h | h
    · exact hdigit l.whole_isDigit h
    · rcases List.mem_append.1 h with h | h
      · split at h
        · cases h
        · rcases List.mem_cons.1 h with rfl | h
          · rfl
          · exact hdigit l.tenths_isDigit h
      · exact hscale h

/-- White space at the two ends is removed, and nothing else. -/
theorem Text.trimBlank_padded {before cs after : List Char} (hb : ∀ c ∈ before, isBlank c = true)
    (hcs : ∀ c ∈ cs, isBlank c = false) (hne : cs ≠ []) (ha : ∀ c ∈ after, isBlank c = true) :
    trimBlank (before ++ cs ++ after) = cs := by
  have hstop : ∀ {ds rest : List Char}, (∀ c ∈ ds, isBlank c = false) → ds ≠ [] →
      (ds ++ rest).dropWhile isBlank = ds ++ rest := by
    intro ds rest hds hne
    obtain ⟨c, ds, rfl⟩ := List.exists_cons_of_ne_nil hne
    rw [List.cons_append, List.dropWhile_cons_of_neg]
    simp [hds c List.mem_cons_self]
  have hleft : (before ++ cs ++ after).dropWhile isBlank = cs ++ after := by
    rw [List.append_assoc, List.dropWhile_append_of_pos hb, hstop hcs hne]
  have hright : (cs ++ after).reverse.dropWhile isBlank = cs.reverse := by
    rw [List.reverse_append, List.dropWhile_append_of_pos fun c hc => ha c (List.mem_reverse.1 hc)]
    have h : (cs.reverse ++ []).dropWhile isBlank = cs.reverse ++ [] :=
      hstop (fun c hc => hcs c (List.mem_reverse.1 hc)) (List.reverse_ne_nil_iff.2 hne)
    rwa [List.append_nil] at h
  rw [trimBlank, hleft, hright, List.reverse_reverse]

/-- The text of a literal, with white space around it, holds the nearest double. -/
theorem Literal.number_text (l : Literal) (hrange : l.nearest.isFinite = true)
    {before after : List Char} (hb : ∀ c ∈ before, Text.isBlank c = true)
    (ha : ∀ c ∈ after, Text.isBlank c = true) :
    Parameter.number (some (.text (String.ofList (before ++ l.chars ++ after)))) = l.nearest := by
  have hne : l.chars ≠ [] := by simp [chars, l.whole_ne_nil]
  rw [Parameter.number, String.toList_ofList, Text.trimBlank_padded hb l.isBlank_chars hne ha,
    readLiteral?_chars]
  exact if_pos hrange

/-! ## Numeric parameters -/

namespace Json

/-- The entries of an object; any other value has none. -/
def entries : Json → List (String × Json)
  | object entries => entries
  | _ => []

/-- The value with `v` at a path of keys; where the path leads through something else than an
object, that becomes one. -/
def put (w : Json) (path : List String) (v : Json) : Json :=
  match path with
  | [] => v
  | k :: path => object (insert k (put ((w.get? k).getD null) path v) w.entries)

theorem lookup_insert_self (k : String) (v : Json) (entries : List (String × Json)) :
    (insert k v entries).lookup k = some v := by
  induction entries with
  | nil => exact List.lookup_cons_self
  | cons e rest ih =>
    obtain ⟨l, w⟩ := e
    unfold insert
    split_ifs with hlt heq
    · exact List.lookup_cons_self
    · exact List.lookup_cons_self
    · rw [List.lookup_cons, beq_false_of_ne heq, ih]

theorem lookup_insert_of_ne {j k : String} (h : j ≠ k) (v : Json)
    (entries : List (String × Json)) : (insert k v entries).lookup j = entries.lookup j := by
  induction entries with
  | nil => rw [insert, List.lookup_cons, beq_false_of_ne h]
  | cons e rest ih =>
    obtain ⟨l, w⟩ := e
    unfold insert
    split_ifs with hlt heq
    · rw [List.lookup_cons, beq_false_of_ne h]
    · rw [List.lookup_cons, beq_false_of_ne h, List.lookup_cons, ← heq, beq_false_of_ne h]
    · rw [List.lookup_cons, ih, List.lookup_cons]

theorem get?_put_self (w : Json) (k : String) (path : List String) (v : Json) :
    (w.put (k :: path) v).get? k = some (((w.get? k).getD null).put path v) :=
  lookup_insert_self k _ w.entries

theorem get?_put_of_ne {j k : String} (h : j ≠ k) (w : Json) (path : List String) (v : Json) :
    (w.put (k :: path) v).get? j = w.get? j := by
  refine (lookup_insert_of_ne h _ w.entries).trans ?_
  cases w <;> rfl

end Json

/-- Where the numeric parameters of a kind stand under its name. -/
def CommandKind.numericPaths : CommandKind → List (List String)
  | move | turn | loop => [[]]
  | goTo => [["x"], ["y"]]
  | say | think => [["sec"]]

namespace Command

variable {name key : String} {kind : CommandKind} {path : List String} {bag : Json}

/-- The parameters of a command are those under the name as written, and those under the canonical
name if there are none. -/
theorem slot_put (hkey : key = name ∨ (key = kind.name ∧ bag.get? name = none))
    (path : List String) (v : Json) :
    (((bag.put (key :: path) v).get? name).or ((bag.put (key :: path) v).get? kind.name))
      = some (((bag.get? key).getD .null).put path v) := by
  by_cases hname : name = key
  · rw [hname, Json.get?_put_self]
    rfl
  · obtain ⟨rfl, hnone⟩ := hkey.resolve_left (Ne.symm hname)
    rw [Json.get?_put_of_ne hname, hnone, Json.get?_put_self]
    rfl

/-- A command depends on a numeric parameter through the number in it. -/
theorem ofNamed_put (hkind : CommandKind.ofName? name = some kind)
    (hpath : path ∈ kind.numericPaths)
    (hkey : key = name ∨ (key = kind.name ∧ bag.get? name = none)) {v w : Json}
    (h : Parameter.number (some v) = Parameter.number (some w)) :
    ofNamed name (bag.put (key :: path) v) = ofNamed name (bag.put (key :: path) w) := by
  have hv := slot_put hkey path v
  have hw := slot_put hkey path w
  generalize (bag.get? key).getD .null = old at hv hw
  have hnumber : ∀ j k, Parameter.number ((old.put [k] v).get? j)
      = Parameter.number ((old.put [k] w).get? j) := by
    intro j k
    by_cases hjk : j = k
    · rw [hjk, Json.get?_put_self, Json.get?_put_self]
      exact h
    · rw [Json.get?_put_of_ne hjk, Json.get?_put_of_ne hjk]
  have htext : Parameter.text ((old.put ["sec"] v).get? "text")
      = Parameter.text ((old.put ["sec"] w).get? "text") := by
    rw [Json.get?_put_of_ne (by decide), Json.get?_put_of_ne (by decide)]
  simp only [ofNamed, hkind, hv, hw, Option.bind_some]
  cases kind with
  | move =>
    obtain rfl := List.mem_singleton.1 hpath
    exact congrArg move h
  | turn =>
    obtain rfl := List.mem_singleton.1 hpath
    exact congrArg turn h
  | goTo =>
    rcases List.mem_pair.1 hpath with rfl | rfl
    · exact congrArg₂ goTo (hnumber "x" "x") (hnumber "y" "x")
    · exact congrArg₂ goTo (hnumber "x" "y") (hnumber "y" "y")
  | say =>
    obtain rfl := List.mem_singleton.1 hpath
    exact congrArg₂ say htext (hnumber "sec" "sec")
  | think =>
    obtain rfl := List.mem_singleton.1 hpath
    exact congrArg₂ think htext (hnumber "sec" "sec")
  | loop =>
    obtain rfl := List.mem_singleton.1 hpath
    exact congrArg (loop ∘ Parameter.count) h

/-- A command of the vocabulary that is read holds finite numbers only. -/
theorem faithful_ofNamed (hkind : CommandKind.ofName? name = some kind) (value : Json) :
    (ofNamed name value).Faithful := by
  have hnumber := Parameter.isFinite_number
  simp only [ofNamed, hkind]
  cases kind with
  | goTo => exact ⟨hnumber _, hnumber _⟩
  | loop => trivial
  | _ => exact hnumber _

/-- Let a literal be in the range of doubles; and unless it is a word or a short one, let the reader
of values read the double nearest to it.  Then the reader of values accepts it, before anything that
does not go on with it, and reads that double.  And whatever numeric parameter of a command it is
written in, under the name of the command as written or under the canonical name: as a text, with
white space around it or not, it makes the same command as the number that was read. -/
theorem literals_read_alike (l : Literal) (hrange : l.nearest.isFinite = true)
    (hnearest : ¬ l.IsExact → l.ReadsNearest) :
    ∃ n : Number, n.toFloat = l.nearest
      ∧ (∀ depth rest, Json.EndsNumber rest →
        Json.readValue depth (l.chars ++ rest) = .ok (.number n, rest))
      ∧ ∀ (name key : String) (kind : CommandKind) (path : List String) (bag : Json)
          (before after : List Char),
        CommandKind.ofName? name = some kind → path ∈ kind.numericPaths →
        key = name ∨ (key = kind.name ∧ bag.get? name = none) →
        (∀ c ∈ before, Text.isBlank c = true) → (∀ c ∈ after, Text.isBlank c = true) →
        ofNamed name (bag.put (key :: path)
            (.text (String.ofList (before ++ l.chars ++ after))))
          = ofNamed name (bag.put (key :: path) (.number n))
        ∧ (ofNamed name (bag.put (key :: path)
            (.text (String.ofList (before ++ l.chars ++ after))))).same
          (ofNamed name (bag.put (key :: path) (.number n))) = true := by
  obtain ⟨n, hread, hn⟩ := Literal.exists_readNumber hrange hnearest
  refine ⟨n, hn, fun depth rest hrest => Json.readValue_of_readNumber hread hrest, ?_⟩
  intro name key kind path bag before after hkind hpath hkey hb ha
  have hnumber : Parameter.number (some (.text (String.ofList (before ++ l.chars ++ after))))
      = Parameter.number (some (.number n)) := (l.number_text hrange hb ha).trans hn.symm
  have hsame := ofNamed_put hkind hpath hkey hnumber
  refine ⟨hsame, ?_⟩
  rw [hsame]
  exact same_self (faithful_ofNamed hkind _)

/-- The literal `-18446744073709551616.5E-1`: it has more digits than a word holds. -/
def longLiteral : Literal where
  negative := true
  whole := ['1', '8', '4', '4', '6', '7', '4', '4', '0', '7', '3', '7', '0', '9', '5', '5', '1', '6',
    '1', '6']
  tenths := ['5']
  scale := some ⟨'E', ['-'], ['1'], .inr rfl, .inr (.inr rfl), List.all_eq_true.1 rfl, nofun⟩
  whole_isDigit := List.all_eq_true.1 rfl
  whole_ne_nil := nofun
  leading := nofun
  tenths_isDigit := List.all_eq_true.1 rfl

/-- It reads alike under an alias of a command, from the canonical name and with white space. -/
theorem literals_read_alike_long : longLiteral.nearest.isFinite = true
    ∧ (¬ longLiteral.IsExact → longLiteral.ReadsNearest)
    ∧ ∃ n : Number, n.toFloat = longLiteral.nearest
      ∧ (∀ depth rest, Json.EndsNumber rest →
        Json.readValue depth (longLiteral.chars ++ rest) = .ok (.number n, rest))
      ∧ (CommandKind.ofName? "goto" = some .goTo ∧ ["y"] ∈ CommandKind.goTo.numericPaths
        ∧ Json.get? (.object [("b", .null)]) "goto" = none
        ∧ (∀ c ∈ [' ', '\t'], Text.isBlank c = true) ∧ ∀ c ∈ ['\u00a0'], Text.isBlank c = true)
      ∧ ofNamed "goto" (Json.put (.object [("b", .null)]) ["coords", "y"]
            (.text (String.ofList ([' ', '\t'] ++ longLiteral.chars ++ ['\u00a0']))))
          = ofNamed "goto" (Json.put (.object [("b", .null)]) ["coords", "y"] (.number n))
      ∧ (ofNamed "goto" (Json.put (.object [("b", .null)]) ["coords", "y"]
            (.text (String.ofList ([' ', '\t'] ++ longLiteral.chars ++ ['\u00a0']))))).same
          (ofNamed "goto" (Json.put (.object [("b", .null)]) ["coords", "y"] (.number n)))
          = true := by
  have hrange : longLiteral.nearest.isFinite = true := by decide +kernel
  have hnearest : ¬ longLiteral.IsExact → longLiteral.ReadsNearest := fun _ => by
    unfold Literal.ReadsNearest
    decide +kernel
  have hpath : ["y"] ∈ CommandKind.goTo.numericPaths := List.mem_cons_of_mem _ List.mem_cons_self
  have hbefore : ∀ c ∈ [' ', '\t'], Text.isBlank c = true := List.all_eq_true.1 rfl
  have hafter : ∀ c ∈ ['\u00a0'], Text.isBlank c = true := List.all_eq_true.1 rfl
  obtain ⟨n, hn, hread, halike⟩ := literals_read_alike longLiteral hrange hnearest
  exact ⟨hrange, hnearest, n, hn, hread, ⟨rfl, hpath, rfl, hbefore, hafter⟩,
    halike "goto" "coords" .goTo ["y"] _ _ _ rfl hpath (.inr ⟨rfl, rfl⟩) hbefore hafter⟩

end Command

end SpriteCanvas
