import SpriteCanvas.Json.Record

/-!
# What readers accept

A reader that goes through several parts accepts a text exactly if it accepts each of them
(`bind_eq_ok`).  A record is put together from what its fields read, so what every field keeps
holds of the record (`readRecord_keeps`).
-/

namespace SpriteCanvas.Json

variable {α β ε σ : Type}

theorem bind_eq_ok {x : Except ε α} {f : α → Except ε β} {b : β} :
    x >>= f = .ok b ↔ ∃ a, x = .ok a ∧ f a = .ok b := by
  cases x with
  | error e => exact ⟨nofun, nofun⟩
  | ok a => exact ⟨fun h => ⟨a, rfl, h⟩, fun ⟨_, ha, h⟩ => (Except.ok.inj ha) ▸ h⟩

theorem mapRead_eq_ok {f : α → β} {read : Read α} {cs rest : List Char} {y : β} :
    mapRead f read cs = .ok (y, rest) ↔ ∃ x, read cs = .ok (x, rest) ∧ y = f x := by
  unfold mapRead
  split
  · rename_i x rest' h
    simp only [h, Except.ok.injEq, Prod.mk.injEq]
    exact ⟨fun ⟨hy, hr⟩ => ⟨x, ⟨rfl, hr⟩, hy.symm⟩, fun ⟨_, ⟨hx, hr⟩, hy⟩ => ⟨hx ▸ hy.symm, hr⟩⟩
  · rename_i h
    simp [h]

/-- A value of the wrong kind is never accepted. -/
theorem wrongKind_ne_ok {expected : String} {cs : List Char} {x : α} :
    wrongKind expected cs ≠ .ok x := by
  intro h
  unfold wrongKind at h
  dsimp only at h
  split at h <;> try cases h
  all_goals try (obtain ⟨_, -, h⟩ := bind_eq_ok.1 h; cases h)
  split at h
  · obtain ⟨_, -, h⟩ := bind_eq_ok.1 h
    cases h
  · cases h

/-! ## Lists -/

/-- What holds of everything that a reader gives holds of the items of a list. -/
theorem forall_of_readItems {item : Read α} {P : α → Prop}
    (hitem : ∀ {cs x rest}, item cs = .ok (x, rest) → P x) {spine cs rest : List Char}
    {done items : List α} (hdone : ∀ x ∈ done, P x)
    (h : readItems item spine done cs = .ok (items, rest)) : ∀ x ∈ items, P x := by
  induction spine generalizing done cs with
  | nil => cases h
  | cons c spine ih =>
    obtain ⟨⟨more, cs'⟩, -, h⟩ := bind_eq_ok.1 h
    dsimp only at h
    split at h
    · obtain ⟨⟨x, cs''⟩, hx, h⟩ := bind_eq_ok.1 h
      exact ih (List.forall_mem_cons.2 ⟨hitem hx, hdone⟩) h
    · cases h
      exact fun x hx => hdone x (List.mem_reverse.1 hx)

theorem forall_of_readList {item : Read α} {P : α → Prop}
    (hitem : ∀ {cs x rest}, item cs = .ok (x, rest) → P x) {cs rest : List Char} {items : List α}
    (h : readList item cs = .ok (items, rest)) : ∀ x ∈ items, P x := by
  obtain ⟨⟨items', _⟩, hitems, h⟩ := bind_eq_ok.1 h
  obtain ⟨_, -, h⟩ := bind_eq_ok.1 h
  cases h
  exact forall_of_readItems hitem (List.forall_mem_nil P) hitems

/-! ## Records -/

namespace Shape

variable {shape : Shape σ} {P : σ → Prop} {depth : Nat} {cs rest : List Char} {x y : σ}

/-- Whatever a field reads, it keeps `P`. -/
def Keeps (fields : List (Field σ)) (depth : Nat) (P : σ → Prop) : Prop :=
  ∀ f ∈ fields, ∀ cs put rest, f.read depth cs = .ok (put, rest) → ∀ x, P x → P (put x)

theorem readFromList_keeps {fields : List (Field σ)} (hk : Keeps fields depth P) {present : Nat}
    (hx : P x) (h : shape.readFromList depth fields present x cs = .ok (y, rest)) : P y := by
  induction fields generalizing present x cs with
  | nil =>
    cases h
    exact hx
  | cons f fields ih =>
    have hrest : Keeps fields depth P := fun g hg => hk g (List.mem_cons_of_mem f hg)
    obtain ⟨⟨more, cs'⟩, -, h⟩ := bind_eq_ok.1 h
    dsimp only at h
    split at h
    · obtain ⟨⟨put, cs''⟩, hput, h⟩ := bind_eq_ok.1 h
      exact ih hrest (hk f List.mem_cons_self cs' put cs'' hput x hx) h
    · split at h
      · exact ih hrest hx h
      · cases h

theorem readFromObject_keeps (hk : Keeps shape.fields depth P) {spine : List Char} {first : Bool}
    {seen : List String} (hx : P x)
    (h : shape.readFromObject depth spine first seen x cs = .ok (y, rest)) : P y := by
  induction spine generalizing first seen x cs with
  | nil => cases h
  | cons c spine ih =>
    rw [readFromObject] at h
    obtain ⟨⟨key, cs'⟩, -, h⟩ := bind_eq_ok.1 h
    cases key with
    | none =>
      dsimp only at h
      split at h
      · cases h
      · cases h
        exact hx
    | some k =>
      dsimp only at h
      split at h
      · obtain ⟨⟨_, _⟩, -, h⟩ := bind_eq_ok.1 h
        obtain ⟨⟨_, _⟩, -, h⟩ := bind_eq_ok.1 h
        exact ih hx h
      · rename_i f hf
        split at h
        · cases h
        obtain ⟨⟨_, _⟩, -, h⟩ := bind_eq_ok.1 h
        obtain ⟨⟨put, _⟩, hput, h⟩ := bind_eq_ok.1 h
        exact ih (hk f (List.mem_of_find?_eq_some hf) _ put _ hput x hx) h

end Shape

/-- What holds of a record's initial value, and is kept by every field, holds of what is read. -/
theorem readRecord_keeps {shape : Shape σ} {P : σ → Prop} {depth : Nat}
    (hk : Shape.Keeps shape.fields (depth - 1) P) (hinitial : P shape.initial)
    {cs rest : List Char} {x : σ} (h : readRecord shape depth cs = .ok (x, rest)) : P x := by
  unfold readRecord at h
  split at h
  · split at h
    · cases h
    · obtain ⟨⟨y, _⟩, hy, h⟩ := bind_eq_ok.1 h
      obtain ⟨⟨_, _⟩, -, h⟩ := bind_eq_ok.1 h
      cases h
      exact Shape.readFromList_keeps hk hinitial hy
  · split at h
    · cases h
    · obtain ⟨⟨y, _⟩, hy, h⟩ := bind_eq_ok.1 h
      obtain ⟨⟨_, _⟩, -, h⟩ := bind_eq_ok.1 h
      cases h
      exact Shape.readFromObject_keeps hk hinitial hy
  · exact absurd h wrongKind_ne_ok

theorem readWhole_eq_ok {read : Read α} {s : String} {x : α} :
    readWhole read s = .ok x ↔ ∃ rest, read s.toList = .ok (x, rest) ∧ skipSpace rest = [] := by
  unfold readWhole
  simp only [bind_eq_ok, Prod.exists]
  constructor
  · rintro ⟨y, rest, hy, h⟩
    split at h
    · rename_i hr
      cases h
      exact ⟨rest, hy, List.isEmpty_iff.1 hr⟩
    · cases h
  · rintro ⟨rest, hx, hr⟩
    exact ⟨x, rest, hx, by rw [hr]; rfl⟩

end SpriteCanvas.Json
