import SpriteCanvas.Cast.SpriteId

/-!
# Waiting checks

The sprites that wait for a proximity check, first come first served.  A sprite waits at most
once.
-/

namespace SpriteCanvas

/-- Sprites waiting for a check, the first one in front. -/
structure CheckQueue where
  waiting : List SpriteId
  nodup : waiting.Nodup

namespace CheckQueue

/-- Nobody waits. -/
def empty : CheckQueue := ⟨[], .nil⟩

theorem ext_waiting {q q' : CheckQueue} (h : q.waiting = q'.waiting) : q = q' := by
  cases q
  cases q'
  cases h
  rfl

variable (q : CheckQueue)

/-- Adds a sprite at the end unless it is waiting, and tells whether it was added. -/
def push (id : SpriteId) : Bool × CheckQueue :=
  if h : id ∈ q.waiting then (false, q)
  else
    (true, ⟨q.waiting ++ [id], by
      refine List.nodup_append.2 ⟨q.nodup, by simp, ?_⟩
      rintro a ha b hb rfl
      exact h (List.mem_singleton.1 hb ▸ ha)⟩)

/-- Takes the first sprite. -/
def pop : Option SpriteId × CheckQueue :=
  match h : q.waiting with
  | [] => (none, q)
  | id :: rest => (some id, ⟨rest, (h ▸ q.nodup).of_cons⟩)

theorem waiting_of_pop_none {q rest : CheckQueue} (h : q.pop = (none, rest)) :
    q.waiting = [] := by
  unfold pop at h
  split at h
  · assumption
  · cases h

theorem waiting_of_pop_some {q rest : CheckQueue} {id : SpriteId} (h : q.pop = (some id, rest)) :
    q.waiting = id :: rest.waiting := by
  unfold pop at h
  split at h
  · cases h
  · cases h
    assumption

/-- Takes out a sprite wherever it waits. -/
def remove (id : SpriteId) : CheckQueue :=
  ⟨q.waiting.filter (· ≠ id), q.nodup.filter _⟩

/-- The number of sprites waiting. -/
def size : Nat := q.waiting.length

/-- Whether nobody waits. -/
def isEmpty : Bool := q.waiting.isEmpty

end CheckQueue

end SpriteCanvas
