import Mathlib.Data.List.Lex
import SpriteCanvas.Proofs.Strikes
import SpriteCanvas.Proofs.Symmetry

/-!
# Who touches whom

The sprites near a sprite are the others that touch it, and nearness is mutual
(`Cast.mem_near_comm`).  A scan finds each near pair once, by the smaller name and in the order of
the names (`Cast.mem_pairs_iff`, `Cast.pairs_sorted`), and the partners of a sprite are those near
it.  So a sprite is in as many pairs of a scan as there are sprites near it (`Cast.count_pairs`).
-/

namespace SpriteCanvas

namespace Cast

/-- The names of the others that touch a sprite, in order; none if it is not registered. -/
def near (d : Detector) (c : Cast) (id : SpriteId) : List SpriteId :=
  match c.find? id with
  | some m =>
    (c.members.filter fun n =>
      n.id ≠ id && d.touches m.figure.position n.figure.position).map (·.id)
  | none => []

variable {d : Detector} {c c' : Cast} {a b : SpriteId}

theorem mem_near : b ∈ c.near d a ↔ ∃ m n, c.find? a = some m ∧ c.find? b = some n ∧ b ≠ a
    ∧ d.touches m.figure.position n.figure.position = true := by
  unfold near
  rcases hm : c.find? a with _ | m
  · simp
  · simp only [List.mem_map, List.mem_filter, Bool.and_eq_true, decide_eq_true_eq]
    constructor
    · rintro ⟨n, ⟨hn, hne, ht⟩, rfl⟩
      exact ⟨m, n, rfl, find?_of_mem hn, hne, ht⟩
    · rintro ⟨m', n, hm', hn, hne, ht⟩
      obtain rfl := Option.some.inj hm'
      have hid := id_of_find? hn
      exact ⟨n, ⟨mem_of_find? hn, hid ▸ hne, ht⟩, hid⟩

theorem mem_near_comm : b ∈ c.near d a ↔ a ∈ c.near d b := by
  have hswap : ∀ {a b : SpriteId}, b ∈ c.near d a → a ∈ c.near d b := fun h => by
    obtain ⟨m, n, hm, hn, hne, ht⟩ := mem_near.1 h
    exact mem_near.2 ⟨n, m, hn, hm, hne.symm, by rwa [d.touches_comm]⟩
  exact ⟨hswap, hswap⟩

theorem ne_of_mem_near (h : b ∈ c.near d a) : b ≠ a := by
  obtain ⟨-, -, -, -, hne, -⟩ := mem_near.1 h
  exact hne

theorem mem_ids_of_mem_near (h : b ∈ c.near d a) : b ∈ c.ids := by
  obtain ⟨-, n, -, hn, -⟩ := mem_near.1 h
  exact mem_ids_of_find? hn

theorem ids_sorted (c : Cast) : c.ids.Pairwise (· < ·) := List.pairwise_map.2 c.sorted

theorem near_sorted (d : Detector) (c : Cast) (a : SpriteId) : (c.near d a).Pairwise (· < ·) := by
  unfold near
  split
  · exact List.pairwise_map.2 (c.sorted.filter _)
  · exact .nil

theorem nodup_of_sorted {l : List SpriteId} (h : l.Pairwise (· < ·)) : l.Nodup :=
  h.imp fun hlt => Std.ne_of_lt hlt

theorem near_nodup (d : Detector) (c : Cast) (a : SpriteId) : (c.near d a).Nodup :=
  nodup_of_sorted (near_sorted d c a)

/-- Nobody moves when figures change in other ways. -/
theorem near_mapFigures {f : Member → Figure} (hf : ∀ m, (f m).position = m.figure.position) :
    (c.mapFigures f).near d = c.near d := by
  funext a
  unfold near
  rw [find?_mapFigures]
  rcases c.find? a with _ | m
  · rfl
  · simp [mapFigures, List.filter_map, Function.comp_def, hf]

/-! ## Pairs and partners -/

theorem partners_bodies (d : Detector) (c : Cast) (a : SpriteId) :
    d.partners a c.bodies = c.near d a := by
  have hfind : c.bodies.find? (·.1 = a) = (c.find? a).map fun m => (m.id, m.figure.position) := by
    rw [bodies, List.find?_map]
    rfl
  rw [Detector.partners, near, hfind]
  rcases c.find? a with _ | m
  · rfl
  · simp [bodies, List.filter_map, Function.comp_def]

/-- In bodies in the order of their names, who comes later has the greater name. -/
theorem pairs_of_sorted (d : Detector) : ∀ {bs : List Body}, (bs.map (·.1)).Pairwise (· < ·) →
    d.pairs bs = bs.flatMap fun p =>
      (bs.filter fun q => p.1 < q.1 && d.touches p.2 q.2).map fun q => (p.1, q.1)
  | [], _ => rfl
  | p :: bs, h => by
    obtain ⟨hp, hbs⟩ := List.pairwise_cons.1 h
    have hlt : ∀ q ∈ bs, p.1 < q.1 := fun q hq => hp q.1 (List.mem_map_of_mem hq)
    have hfirst : (p :: bs).filter (fun q => p.1 < q.1 && d.touches p.2 q.2)
        = bs.filter fun q => d.touches p.2 q.2 := by
      rw [List.filter_cons_of_neg (by simp)]
      exact List.filter_congr fun q hq => by simp [hlt q hq]
    have hrest : ∀ q ∈ bs, (p :: bs).filter (fun r => q.1 < r.1 && d.touches q.2 r.2)
        = bs.filter fun r => q.1 < r.1 && d.touches q.2 r.2 := fun q hq => by
      refine List.filter_cons_of_neg ?_
      simp [String.lt_asymm (hlt q hq)]
    rw [Detector.pairs, pairs_of_sorted d hbs, Detector.pairsWith, List.flatMap_cons, hfirst]
    exact congrArg _ (List.flatMap_congr fun q hq => by rw [hrest q hq])

/-- A scan finds for each sprite, in order, those near it that have a greater name. -/
theorem pairs_bodies (d : Detector) (c : Cast) :
    d.pairs c.bodies
      = c.ids.flatMap fun a => ((c.near d a).filter (a < ·)).map fun b => (a, b) := by
  have hsorted : (c.bodies.map (·.1)).Pairwise (· < ·) := by
    simpa [bodies, Function.comp_def, ids] using c.ids_sorted
  rw [pairs_of_sorted d hsorted, ids, bodies, List.flatMap_map, List.flatMap_map]
  refine List.flatMap_congr fun m hm => ?_
  rw [near, find?_of_mem hm]
  simp only [List.filter_map, List.filter_filter, List.map_map, Function.comp_def]
  refine congrArg _ (List.filter_congr fun n _ => ?_)
  by_cases hlt : m.id < n.id
  · simp [hlt, (Std.ne_of_lt hlt).symm]
  · simp [hlt]

theorem mem_pairs_iff : (a, b) ∈ d.pairs c.bodies ↔ a < b ∧ b ∈ c.near d a := by
  simp only [pairs_bodies, List.mem_flatMap, List.mem_map, List.mem_filter, decide_eq_true_eq]
  constructor
  · rintro ⟨i, -, j, ⟨hj, hlt⟩, heq⟩
    cases heq
    exact ⟨hlt, hj⟩
  · rintro ⟨hlt, hb⟩
    exact ⟨a, mem_ids_of_mem_near (mem_near_comm.1 hb), b, ⟨hb, hlt⟩, rfl⟩

theorem pairs_sorted (d : Detector) (c : Cast) :
    (d.pairs c.bodies).Pairwise (Prod.Lex (· < ·) (· < ·)) := by
  rw [pairs_bodies, List.pairwise_flatMap]
  refine ⟨fun a _ => List.pairwise_map.2 ?_, c.ids_sorted.imp fun hlt p hp q hq => ?_⟩
  · exact ((near_sorted d c a).filter _).imp fun hlt => .right a hlt
  · obtain ⟨_, -, rfl⟩ := List.mem_map.1 hp
    obtain ⟨_, -, rfl⟩ := List.mem_map.1 hq
    exact .left _ _ hlt

theorem pairs_nodup (d : Detector) (c : Cast) : (d.pairs c.bodies).Nodup := by
  refine (pairs_sorted d c).imp ?_
  rintro p q hlt rfl
  rcases Prod.lex_def.1 hlt with h | ⟨-, h⟩ <;> exact String.lt_irrefl _ h

theorem ne_of_mem_pairs {p : SpriteId × SpriteId} (h : p ∈ d.pairs c.bodies) : p.1 ≠ p.2 :=
  Std.ne_of_lt (mem_pairs_iff.1 h).1

end Cast

/-! ## Counting pairs -/

section Counting

variable {α : Type} [DecidableEq α] {ps : List (α × α)} {xs : List α}

theorem countP_fst_eq (hps : ps.Nodup) (hxs : xs.Nodup) {a : α} (h : ∀ b, (a, b) ∈ ps ↔ b ∈ xs) :
    ps.countP (·.1 = a) = xs.length := by
  have hperm : (ps.filter (·.1 = a)).Perm (xs.map (a, ·)) := by
    refine (List.perm_ext_iff_of_nodup (hps.filter _) (hxs.map fun _ _ => by simp)).2 ?_
    rintro ⟨i, b⟩
    simp only [List.mem_filter, decide_eq_true_eq, List.mem_map, Prod.mk.injEq]
    constructor
    · rintro ⟨hmem, rfl⟩
      exact ⟨b, (h b).1 hmem, rfl, rfl⟩
    · rintro ⟨b, hb, rfl, rfl⟩
      exact ⟨(h b).2 hb, rfl⟩
  rw [List.countP_eq_length_filter, hperm.length_eq, List.length_map]

theorem countP_snd_eq (hps : ps.Nodup) (hxs : xs.Nodup) {b : α} (h : ∀ a, (a, b) ∈ ps ↔ a ∈ xs) :
    ps.countP (·.2 = b) = xs.length := by
  have hswap := countP_fst_eq (hps.map Prod.swap_injective) hxs (a := b) fun a => by
    rw [← h a]
    simp
  rwa [List.countP_map] at hswap

theorem count_eachOf (ps : List (SpriteId × SpriteId)) (id : SpriteId) :
    (eachOf ps).count id = ps.countP (·.1 = id) + ps.countP (·.2 = id) := by
  induction ps with
  | nil => rfl
  | cons p ps ih =>
    have hcons : eachOf (p :: ps) = [p.1, p.2] ++ eachOf ps := rfl
    simp only [hcons, List.count_append, ih, List.countP_cons, List.count_cons, List.count_nil,
      beq_iff_eq, decide_eq_true_eq]
    omega

end Counting

namespace Cast

variable {d : Detector} {c : Cast}

/-- A sprite is in a pair of a scan with each sprite near it. -/
theorem count_pairs (d : Detector) (c : Cast) (id : SpriteId) :
    (eachOf (d.pairs c.bodies)).count id = (c.near d id).length := by
  have hnodup := near_nodup d c id
  -- A sprite stands first in its pairs with the greater ones, second in those with the smaller.
  have hgreater : (d.pairs c.bodies).countP (·.1 = id) = ((c.near d id).filter (id < ·)).length :=
    countP_fst_eq (pairs_nodup d c) (hnodup.filter _) fun b => by
      simp [mem_pairs_iff, and_comm]
  have hsmaller : (d.pairs c.bodies).countP (·.2 = id)
      = ((c.near d id).filter fun a => ¬ id < a).length := by
    refine countP_snd_eq (pairs_nodup d c) (hnodup.filter _) fun a => ?_
    simp only [mem_pairs_iff, List.mem_filter, decide_eq_true_eq, mem_near_comm (a := a)]
    refine ⟨fun ⟨hlt, ha⟩ => ⟨ha, String.lt_asymm hlt⟩, fun ⟨ha, hle⟩ => ⟨?_, ha⟩⟩
    exact Std.lt_of_le_of_ne (String.not_lt.1 hle) (ne_of_mem_near ha)
  rw [count_eachOf, hgreater, hsmaller, ← List.countP_eq_length_filter,
    ← List.countP_eq_length_filter, List.length_eq_countP_add_countP fun a => decide (id < a)]
  simp

end Cast

end SpriteCanvas
