/-!
# Skew heaps

A heap keeps the least of its items at the root.  Two heaps merge along their right spines, and
each node on the way swaps its branches, which keeps the spines short.
-/

namespace SpriteCanvas

/-- A binary tree of items. -/
inductive Heap (α : Type) where
  | nil
  | node (item : α) (left right : Heap α)

namespace Heap

variable {α : Type} (le : α → α → Bool)

/-- Merges the tree with root `x`, left branch `l` and right branch `r` into another one, where
`mergeRight` merges `r` into a tree. -/
def mergeNode (x : α) (l r : Heap α) (mergeRight : Heap α → Heap α) : Heap α → Heap α
  | nil => node x l r
  | node y l' r' =>
    if le x y then node x (mergeRight (node y l' r')) l
    else node y (mergeNode x l r mergeRight r') l'

/-- The heap of the items of two heaps. -/
def merge : Heap α → Heap α → Heap α
  | nil => id
  | node x l r => mergeNode le x l r (merge r)

/-- The heap with one more item. -/
def push (x : α) (h : Heap α) : Heap α := merge le (node x nil nil) h

/-- The least item. -/
def peek? : Heap α → Option α
  | nil => none
  | node x _ _ => some x

/-- The heap without its least item. -/
def pop : Heap α → Heap α
  | nil => nil
  | node _ l r => merge le l r

/-- The number of items. -/
def size : Heap α → Nat
  | nil => 0
  | node _ l r => size l + size r + 1

@[simp] theorem size_nil : (nil : Heap α).size = 0 := rfl

@[simp] theorem size_node (x : α) (l r : Heap α) : (node x l r).size = l.size + r.size + 1 := rfl

theorem size_mergeNode (x : α) (l r : Heap α) (mergeRight : Heap α → Heap α)
    (hr : ∀ h, (mergeRight h).size = r.size + h.size) :
    ∀ h, (mergeNode le x l r mergeRight h).size = (node x l r).size + h.size
  | nil => by simp [mergeNode]
  | node y l' r' => by
    have ih := size_mergeNode x l r mergeRight hr r'
    simp only [size_node] at ih
    simp only [mergeNode]
    split
    · simp only [size_node, hr]
      omega
    · simp only [size_node, ih]
      omega

theorem size_merge : ∀ g h : Heap α, (merge le g h).size = g.size + h.size
  | nil, h => by simp [merge]
  | node x l r, h => size_mergeNode le x l r (merge le r) (size_merge r) h

theorem size_pop {h : Heap α} {x : α} (hx : h.peek? = some x) : (h.pop le).size + 1 = h.size := by
  cases h with
  | nil => cases hx
  | node y l r => simp [pop, size_merge]

/-- The items, in no particular order. -/
def toList : Heap α → List α
  | nil => []
  | node x l r => x :: (toList l ++ toList r)

end Heap

end SpriteCanvas
