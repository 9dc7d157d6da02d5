import Mathlib.Data.List.Perm.Basic
import SpriteCanvas.Alarm.Heap

/-!
# Skew heaps as bags

Merging keeps all items (`toList_merge`) and the order of a heap (`Ordered.merge`), so the root is
a least item after any operations (`Ordered.le_of_peek?`).
-/

namespace SpriteCanvas.Heap

variable {α : Type} {le : α → α → Bool}

theorem toList_mergeNode {x : α} {l r : Heap α} {mergeRight : Heap α → Heap α}
    (hr : ∀ h, (mergeRight h).toList.Perm (r.toList ++ h.toList)) :
    ∀ h, (mergeNode le x l r mergeRight h).toList.Perm ((node x l r).toList ++ h.toList)
  | nil => by rw [mergeNode, toList.eq_1, List.append_nil]
  | node y l' r' => by
    have ih := toList_mergeNode (x := x) (l := l) hr r'
    rw [mergeNode]
    split
    · show (x :: _).Perm (x :: (l.toList ++ r.toList ++ (node y l' r').toList))
      refine List.Perm.cons x (((hr _).append_right l.toList).trans ?_)
      rw [List.append_assoc l.toList]
      exact List.perm_append_comm
    · refine ((ih.append_right l'.toList).cons y).trans ?_
      rw [List.append_assoc]
      exact ((List.perm_append_comm.append_left _).cons y).trans List.perm_middle.symm

theorem toList_merge : ∀ g h : Heap α, (merge le g h).toList.Perm (g.toList ++ h.toList)
  | nil, _ => .refl _
  | node _ _ r, h => toList_mergeNode (toList_merge r) h

theorem toList_push (x : α) (h : Heap α) : (h.push le x).toList.Perm (x :: h.toList) :=
  toList_merge (node x nil nil) h

theorem toList_pop (le : α → α → Bool) {x : α} {h : Heap α} (hx : h.peek? = some x) :
    h.toList.Perm (x :: (h.pop le).toList) := by
  cases h with
  | nil => cases hx
  | node y l r =>
    cases hx
    exact (toList_merge l r).symm.cons x

/-- The root of every branch is at most each item below it. -/
def Ordered (le : α → α → Bool) : Heap α → Prop
  | nil => True
  | node x l r => (∀ y ∈ l.toList ++ r.toList, le x y) ∧ l.Ordered le ∧ r.Ordered le

theorem Ordered.le_of_peek? {x : α} {h : Heap α} (hrefl : ∀ x, le x x) (ho : h.Ordered le)
    (hx : h.peek? = some x) : ∀ y ∈ h.toList, le x y := by
  intro y hy
  cases h with
  | nil => cases hx
  | node z l r =>
    cases hx
    rcases List.mem_cons.1 hy with rfl | hy
    · exact hrefl y
    · exact ho.1 y hy

section Merge

variable (htrans : ∀ x y z, le x y → le y z → le x z) (htotal : ∀ x y, le x y ∨ le y x)

include htrans htotal

theorem Ordered.mergeNode {x : α} {l r : Heap α} {mergeRight : Heap α → Heap α}
    (hx : (node x l r).Ordered le)
    (hperm : ∀ h, (mergeRight h).toList.Perm (r.toList ++ h.toList))
    (hord : ∀ h, h.Ordered le → (mergeRight h).Ordered le) :
    ∀ h, h.Ordered le → (mergeNode le x l r mergeRight h).Ordered le
  | nil, _ => hx
  | node y l' r', hy => by
    rw [Heap.mergeNode]
    split
    · rename_i hle
      have hbelow : ∀ z ∈ (node y l' r').toList, le x z := by
        intro z hz
        rcases List.mem_cons.1 hz with rfl | hz
        · exact hle
        · exact htrans x y z hle (hy.1 z hz)
      refine ⟨fun z hz => ?_, hord _ hy, hx.2.1⟩
      rcases List.mem_append.1 hz with hz | hz
      · rcases List.mem_append.1 ((hperm _).mem_iff.1 hz) with hz | hz
        · exact hx.1 z (List.mem_append_right _ hz)
        · exact hbelow z hz
      · exact hx.1 z (List.mem_append_left _ hz)
    · rename_i hnot
      have hle : le y x := (htotal x y).resolve_left hnot
      have hbelow : ∀ z ∈ (node x l r).toList, le y z := by
        intro z hz
        rcases List.mem_cons.1 hz with rfl | hz
        · exact hle
        · exact htrans y x z hle (hx.1 z hz)
      refine ⟨fun z hz => ?_, Ordered.mergeNode hx hperm hord r' hy.2.2, hy.2.1⟩
      rcases List.mem_append.1 hz with hz | hz
      · rcases List.mem_append.1 ((toList_mergeNode hperm r').mem_iff.1 hz) with hz | hz
        · exact hbelow z hz
        · exact hy.1 z (List.mem_append_right _ hz)
      · exact hy.1 z (List.mem_append_left _ hz)

theorem Ordered.merge : ∀ {g h : Heap α}, g.Ordered le → h.Ordered le → (merge le g h).Ordered le
  | nil, _, _, hh => hh
  | node _ _ r, h, hg, hh =>
    Ordered.mergeNode htrans htotal hg (toList_merge r)
      (fun _ hh => Ordered.merge hg.2.2 hh) h hh

theorem Ordered.push {h : Heap α} (ho : h.Ordered le) (x : α) : (h.push le x).Ordered le :=
  Ordered.merge htrans htotal ⟨nofun, trivial, trivial⟩ ho

theorem Ordered.pop {h : Heap α} (ho : h.Ordered le) : (h.pop le).Ordered le := by
  cases h with
  | nil => exact ho
  | node x l r => exact Ordered.merge htrans htotal ho.2.1 ho.2.2

end Merge

end SpriteCanvas.Heap
