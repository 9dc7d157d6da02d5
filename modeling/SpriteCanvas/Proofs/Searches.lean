import Mathlib.Data.List.Sym
import SpriteCanvas.Proofs.Symmetry

/-!
# The two searches agree

`Detector.pairs` searches all bodies at once, `Detector.partners` from one of them.  Among bodies
of different names both find who touches whom (`Detector.mem_found_iff`,
`Detector.mem_partners_iff`), so they agree with each other, and the order of the bodies decides
only in which order they find it.
-/

namespace SpriteCanvas

/-- `a` stands before `b`. -/
def Before (names : List SpriteId) (a b : SpriteId) : Prop := [a, b].Sublist names

namespace Before

variable {names : List SpriteId} {a b x : SpriteId}

theorem ne (hnames : names.Nodup) (h : Before names a b) : a ≠ b := by
  simpa using hnames.sublist h

theorem left_mem (h : Before names a b) : a ∈ names := h.subset (by simp)

theorem later (h : Before names a b) : Before (x :: names) a b := h.cons x

theorem first (h : b ∈ names) : Before (a :: names) a b :=
  List.cons_sublist_cons.2 (List.singleton_sublist.2 h)

/-- What is in order among some names is so when one more stands first. -/
theorem lex_later {p q : SpriteId × SpriteId} (h : Prod.Lex (Before names) (Before names) p q) :
    Prod.Lex (Before (x :: names)) (Before (x :: names)) p q := by
  cases h with
  | left _ _ h => exact .left _ _ h.later
  | right _ h => exact .right _ h.later

end Before

namespace Detector

/-- The pairs that are found, each without an order. -/
def found (d : Detector) (bs : List Body) : List (Sym2 SpriteId) :=
  (d.pairs bs).map fun p => s(p.1, p.2)

/-- What the searches among some bodies find. -/
structure SearchesAgree (d : Detector) (bs : List Body) : Prop where
  /-- Two bodies are found once if they touch, and else not. -/
  once : ∀ p ∈ bs, ∀ q ∈ bs, p.1 ≠ q.1 →
    (d.found bs).count s(p.1, q.1) = if p.2.distance q.2 < d.threshold then 1 else 0
  /-- Nothing else is found. -/
  bodies : ∀ a b, s(a, b) ∈ d.found bs → a ≠ b ∧ a ∈ bs.map (·.1) ∧ b ∈ bs.map (·.1)
  /-- In a pair the body that stands first in the list is first. -/
  ordered : ∀ p ∈ d.pairs bs, Before (bs.map (·.1)) p.1 p.2
  /-- The pairs follow the list by their first, then by their second body. -/
  sorted : (d.pairs bs).Pairwise
    (Prod.Lex (Before (bs.map (·.1))) (Before (bs.map (·.1))))
  /-- The partners of a body are those it is found in a pair with. -/
  agree : ∀ s o, o ∈ d.partners s bs ↔ s(s, o) ∈ d.found bs
  self : ∀ s, s ∉ d.partners s bs
  /-- The partners stand in the order of the list. -/
  listed : ∀ s, (d.partners s bs).Sublist (bs.map (·.1))
  nodup : ∀ s, (d.partners s bs).Nodup
  stranger : ∀ s, s ∉ bs.map (·.1) → d.partners s bs = []
  /-- Each pair is seen from both its sides. -/
  total : (bs.map fun b => (d.partners b.1 bs).length).sum = 2 * (d.pairs bs).length
  /-- In another order of the bodies the same is found. -/
  perm : ∀ bs' : List Body, bs'.Perm bs →
    (d.found bs').Perm (d.found bs) ∧ ∀ s, (d.partners s bs').Perm (d.partners s bs)

variable {d : Detector} {bs rest : List Body} {a b s o : SpriteId}

@[simp] theorem found_cons (d : Detector) (x : Body) (rest : List Body) :
    d.found (x :: rest)
      = (rest.filter fun y => d.touches x.2 y.2).map (fun y => s(x.1, y.1)) ++ d.found rest := by
  simp [found, pairs, pairsWith, Function.comp_def]

/-! ## The search for pairs -/

theorem mem_pairs_iff_sublist : ∀ {bs : List Body}, (a, b) ∈ d.pairs bs
    ↔ ∃ p q, [p, q].Sublist bs ∧ p.1 = a ∧ q.1 = b ∧ d.touches p.2 q.2 = true
  | [] => by simp [pairs]
  | x :: rest => by
    rw [pairs, List.mem_append, mem_pairs_iff_sublist, pairsWith]
    simp only [List.mem_map, List.mem_filter, Prod.mk.injEq, List.cons_sublist_cons',
      List.singleton_sublist]
    constructor
    · rintro (⟨y, ⟨hy, ht⟩, rfl, rfl⟩ | ⟨p, q, hpq, h⟩)
      · exact ⟨x, y, .inr ⟨rfl, hy⟩, rfl, rfl, ht⟩
      · exact ⟨p, q, .inl hpq, h⟩
    · rintro ⟨p, q, hpq | ⟨rfl, hq⟩, h⟩
      · exact .inr ⟨p, q, hpq, h⟩
      · exact .inl ⟨q, ⟨hq, h.2.2⟩, h.1, h.2.1⟩

/-- Of two different bodies one stands before the other. -/
theorem sublist_or_sublist {p q : Body} (hp : p ∈ bs) (hq : q ∈ bs) (hne : p ≠ q) :
    [p, q].Sublist bs ∨ [q, p].Sublist bs := by
  have : Std.Symm fun p q : Body => [p, q].Sublist bs ∨ [q, p].Sublist bs := ⟨fun _ _ => Or.symm⟩
  have hbefore : bs.Pairwise fun p q => [p, q].Sublist bs ∨ [q, p].Sublist bs :=
    List.pairwise_iff_forall_sublist.2 fun h => .inl h
  exact hbefore.forall hp hq hne

theorem found_sublist (d : Detector) : ∀ bs : List Body,
    (d.found bs).Sublist (bs.map (·.1)).sym2
  | [] => .slnil
  | x :: rest => by
    rw [found_cons, List.map_cons, List.sym2, List.map_cons, List.map_map]
    exact ((List.filter_sublist.map _).cons _).append (found_sublist d rest)

theorem found_nodup (d : Detector) (h : (bs.map (·.1)).Nodup) : (d.found bs).Nodup :=
  h.sym2.sublist (found_sublist d bs)

theorem before_of_sublist {p q : Body} (h : [p, q].Sublist bs) : Before (bs.map (·.1)) p.1 q.1 := by
  simpa [Before] using h.map (·.1)

theorem pairs_ordered {p : SpriteId × SpriteId} (h : p ∈ d.pairs bs) :
    Before (bs.map (·.1)) p.1 p.2 := by
  obtain ⟨x, y, hxy, hx, hy, -⟩ := mem_pairs_iff_sublist.1 h
  exact hx ▸ hy ▸ before_of_sublist hxy

theorem mem_found_iff (h : (bs.map (·.1)).Nodup) : s(a, b) ∈ d.found bs
    ↔ ∃ p ∈ bs, ∃ q ∈ bs, p.1 = a ∧ q.1 = b ∧ a ≠ b ∧ d.touches p.2 q.2 = true := by
  have hmem : s(a, b) ∈ d.found bs ↔ (a, b) ∈ d.pairs bs ∨ (b, a) ∈ d.pairs bs := by
    simp only [found, List.mem_map, Prod.exists, Sym2.eq_iff]
    grind
  have hpair : ∀ {a b}, (a, b) ∈ d.pairs bs →
      ∃ p ∈ bs, ∃ q ∈ bs, p.1 = a ∧ q.1 = b ∧ a ≠ b ∧ d.touches p.2 q.2 = true := by
    intro a b hab
    obtain ⟨p, q, hpq, rfl, rfl, ht⟩ := mem_pairs_iff_sublist.1 hab
    have hne := Before.ne h (before_of_sublist hpq)
    exact ⟨p, hpq.subset (by simp), q, hpq.subset (by simp), rfl, rfl, hne, ht⟩
  rw [hmem]
  constructor
  · rintro (hab | hba)
    · exact hpair hab
    · obtain ⟨p, hp, q, hq, hpb, hqa, hne, ht⟩ := hpair hba
      exact ⟨q, hq, p, hp, hqa, hpb, hne.symm, by rwa [d.touches_comm]⟩
  · rintro ⟨p, hp, q, hq, rfl, rfl, hne, ht⟩
    rcases sublist_or_sublist hp hq (fun heq => hne (congrArg _ heq)) with hpq | hqp
    · exact .inl (mem_pairs_iff_sublist.2 ⟨p, q, hpq, rfl, rfl, ht⟩)
    · exact .inr (mem_pairs_iff_sublist.2 ⟨q, p, hqp, rfl, rfl, by rwa [d.touches_comm]⟩)

/-- The pairs follow the bodies. -/
theorem pairs_sorted_by_bodies (d : Detector) : ∀ bs : List Body,
    (d.pairs bs).Pairwise (Prod.Lex (Before (bs.map (·.1))) (Before (bs.map (·.1))))
  | [] => .nil
  | x :: rest => by
    rw [pairs, List.pairwise_append]
    refine ⟨?_, (pairs_sorted_by_bodies d rest).imp Before.lex_later, fun p hp q hq => ?_⟩
    · -- The pairs with the first body follow the others by the second.
      refine List.pairwise_map.2 ((List.pairwise_iff_forall_sublist.2 fun hyz => ?_).filter _)
      exact .right _ (before_of_sublist hyz).later
    · obtain ⟨y, -, rfl⟩ := List.mem_map.1 hp
      exact .left _ _ (Before.first (pairs_ordered hq).left_mem)

theorem count_found (h : (bs.map (·.1)).Nodup) {p q : Body} (hp : p ∈ bs) (hq : q ∈ bs)
    (hne : p.1 ≠ q.1) :
    (d.found bs).count s(p.1, q.1) = if p.2.distance q.2 < d.threshold then 1 else 0 := by
  rw [(found_nodup d h).count]
  refine if_congr ((mem_found_iff h).trans ⟨?_, fun ht => ?_⟩) rfl rfl
  · rintro ⟨p', hp', q', hq', hpp, hqq, -, ht⟩
    obtain rfl := List.inj_on_of_nodup_map h hp' hp hpp
    obtain rfl := List.inj_on_of_nodup_map h hq' hq hqq
    exact of_decide_eq_true ht
  · exact ⟨p, hp, q, hq, rfl, rfl, hne, decide_eq_true ht⟩

/-! ## The search for partners -/

/-- Among bodies of different names a body is the first of its name. -/
theorem find?_body (h : (bs.map (·.1)).Nodup) {p : Body} (hp : p ∈ bs) :
    bs.find? (·.1 = p.1) = some p := by
  have hsome : (bs.find? (·.1 = p.1)).isSome = true :=
    List.find?_isSome.2 ⟨p, hp, decide_eq_true rfl⟩
  obtain ⟨q, hq⟩ := Option.isSome_iff_exists.1 hsome
  have hname : q.1 = p.1 := by simpa using List.find?_some hq
  rwa [List.inj_on_of_nodup_map h (List.mem_of_find?_eq_some hq) hp hname] at hq

theorem partners_body (h : (bs.map (·.1)).Nodup) {p : Body} (hp : p ∈ bs) :
    d.partners p.1 bs
      = (bs.filter fun q => q.1 ≠ p.1 && d.touches p.2 q.2).map (·.1) := by
  rw [partners, find?_body h hp]

theorem partners_stranger (h : s ∉ bs.map (·.1)) : d.partners s bs = [] := by
  have hnone : bs.find? (·.1 = s) = none :=
    List.find?_eq_none.2 fun p hp => by
      simpa using fun heq : p.1 = s => h (heq ▸ List.mem_map_of_mem hp)
  rw [partners, hnone]

theorem mem_partners_iff (h : (bs.map (·.1)).Nodup) : o ∈ d.partners s bs
    ↔ ∃ p ∈ bs, ∃ q ∈ bs, p.1 = s ∧ q.1 = o ∧ s ≠ o ∧ d.touches p.2 q.2 = true := by
  by_cases hs : s ∈ bs.map (·.1)
  · obtain ⟨p, hp, rfl⟩ := List.mem_map.1 hs
    rw [partners_body h hp]
    simp only [List.mem_map, List.mem_filter, Bool.and_eq_true, decide_eq_true_eq]
    constructor
    · rintro ⟨q, ⟨hq, hne, ht⟩, rfl⟩
      exact ⟨p, hp, q, hq, rfl, rfl, Ne.symm hne, ht⟩
    · rintro ⟨p', hp', q, hq, hpp, rfl, hne, ht⟩
      obtain rfl := List.inj_on_of_nodup_map h hp' hp hpp
      exact ⟨q, ⟨hq, hne.symm, ht⟩, rfl⟩
  · rw [partners_stranger hs]
    refine ⟨fun hmem => absurd hmem List.not_mem_nil, ?_⟩
    rintro ⟨p, hp, -, -, rfl, -⟩
    exact absurd (List.mem_map_of_mem hp) hs

theorem partners_sublist (d : Detector) (s : SpriteId) (bs : List Body) :
    (d.partners s bs).Sublist (bs.map (·.1)) := by
  unfold partners
  split
  · exact List.filter_sublist.map _
  · exact List.nil_sublist _

theorem partners_nodup (h : (bs.map (·.1)).Nodup) (s : SpriteId) : (d.partners s bs).Nodup :=
  h.sublist (partners_sublist d s bs)

/-! ## How much is found -/

/-- The bodies of another name that touch a body. -/
def touching (d : Detector) (p : Body) (bs : List Body) : Nat :=
  bs.countP fun q => q.1 ≠ p.1 && d.touches p.2 q.2

theorem length_partners (h : (bs.map (·.1)).Nodup) {p : Body} (hp : p ∈ bs) :
    (d.partners p.1 bs).length = d.touching p bs := by
  rw [partners_body h hp, List.length_map, touching, List.countP_eq_length_filter]

/-- A body in front of the others is seen by those that it sees. -/
theorem sum_touching_cons {x : Body} : ∀ {bs : List Body}, x.1 ∉ bs.map (·.1) → ∀ all : List Body,
    (bs.map fun p => d.touching p (x :: all)).sum
      = (bs.filter fun q => d.touches x.2 q.2).length + (bs.map fun p => d.touching p all).sum
  | [], _, _ => rfl
  | y :: bs, h, all => by
    obtain ⟨hxy, hx⟩ := not_or.1 (mt List.mem_cons.2 h)
    have ih := sum_touching_cons hx all
    have hone : d.touching y (x :: all)
        = (if d.touches x.2 y.2 then 1 else 0) + d.touching y all := by
      rw [touching, List.countP_cons, touching, d.touches_comm y.2]
      simp [hxy, Nat.add_comm]
    rw [List.map_cons, List.sum_cons, List.map_cons, List.sum_cons, hone, ih]
    by_cases ht : d.touches x.2 y.2 = true
    · rw [List.filter_cons_of_pos (by simpa using ht), if_pos ht, List.length_cons]
      omega
    · rw [List.filter_cons_of_neg (by simpa using ht), if_neg ht]
      omega

theorem sum_touching (d : Detector) : ∀ {bs : List Body}, (bs.map (·.1)).Nodup →
    (bs.map fun p => d.touching p bs).sum = 2 * (d.pairs bs).length
  | [], _ => rfl
  | x :: rest, h => by
    obtain ⟨hx, hrest⟩ := List.nodup_cons.1 h
    have ih := sum_touching d hrest
    have hne : ∀ q ∈ rest, q.1 ≠ x.1 := fun q hq heq => hx (List.mem_map.2 ⟨q, hq, heq⟩)
    have hfirst : d.touching x (x :: rest)
        = (rest.filter fun q => d.touches x.2 q.2).length := by
      rw [touching, List.countP_cons_of_neg (by simp), List.countP_eq_length_filter]
      exact congrArg _ (List.filter_congr fun q hq => by simp [hne q hq])
    rw [List.map_cons, List.sum_cons, hfirst, sum_touching_cons hx, ih, pairs, List.length_append,
      pairsWith, List.length_map]
    omega

theorem sum_partners (h : (bs.map (·.1)).Nodup) :
    (bs.map fun b => (d.partners b.1 bs).length).sum = 2 * (d.pairs bs).length := by
  rw [← sum_touching d h]
  exact congrArg _ (List.map_congr_left fun b hb => length_partners h hb)

/-! ## The order of the bodies -/

theorem found_perm {bs' : List Body} (h : (bs.map (·.1)).Nodup) (hperm : bs'.Perm bs) :
    (d.found bs').Perm (d.found bs) := by
  have h' : (bs'.map (·.1)).Nodup := (hperm.map _).nodup_iff.2 h
  refine (List.perm_ext_iff_of_nodup (found_nodup d h') (found_nodup d h)).2 ?_
  rintro ⟨a, b⟩
  rw [mem_found_iff h', mem_found_iff h]
  simp only [hperm.mem_iff]

theorem partners_perm {bs' : List Body} (h : (bs.map (·.1)).Nodup) (hperm : bs'.Perm bs)
    (s : SpriteId) : (d.partners s bs').Perm (d.partners s bs) := by
  have h' : (bs'.map (·.1)).Nodup := (hperm.map _).nodup_iff.2 h
  refine (List.perm_ext_iff_of_nodup (partners_nodup h' s) (partners_nodup h s)).2 fun o => ?_
  rw [mem_partners_iff h', mem_partners_iff h]
  simp only [hperm.mem_iff]

/-- Among bodies of different names the two searches agree. -/
theorem searches_agree (d : Detector) (bs : List Body) (h : (bs.map (·.1)).Nodup) :
    d.SearchesAgree bs where
  once _ hp _ hq hne := count_found h hp hq hne
  bodies a b hab := by
    obtain ⟨p, hp, q, hq, rfl, rfl, hne, -⟩ := (mem_found_iff h).1 hab
    exact ⟨hne, List.mem_map_of_mem hp, List.mem_map_of_mem hq⟩
  ordered _ hp := pairs_ordered hp
  sorted := pairs_sorted_by_bodies d bs
  agree s o := by rw [mem_partners_iff h, mem_found_iff h]
  self s hs := by
    obtain ⟨-, -, -, -, -, -, hne, -⟩ := (mem_partners_iff h).1 hs
    exact hne rfl
  listed s := partners_sublist d s bs
  nodup := partners_nodup h
  stranger _ hs := partners_stranger hs
  total := sum_partners h
  perm _ hperm := ⟨found_perm h hperm, partners_perm h hperm⟩

/-- Three bodies in a row, of which those next to each other touch: the middle one stands first. -/
def row : List Body := [("m", ⟨50, 50⟩), ("a", ⟨42.5, 50⟩), ("z", ⟨57.5, 50⟩)]

theorem searches_agree_row : (row.map (·.1)).Nodup ∧ SearchesAgree ⟨defaultThreshold⟩ row
    ∧ pairs ⟨defaultThreshold⟩ row = [("m", "a"), ("m", "z")]
    ∧ partners ⟨defaultThreshold⟩ "m" row = ["a", "z"]
    ∧ partners ⟨defaultThreshold⟩ "z" row = ["m"] :=
  ⟨by decide, searches_agree _ row (by decide), by decide +kernel, by decide +kernel,
    by decide +kernel⟩

end Detector

end SpriteCanvas
