import SpriteCanvas.World.Call

/-!
# The host

A host records what it is told.  It may react to an update by a call of its own, made before it
hears of the next one: a reaction waits for so many updates of one sprite and then happens once.
-/

namespace SpriteCanvas

/-- How a host listens. -/
inductive Listening where
  /-- It records everything and may react. -/
  | recording
  /-- It passes on updates, and nothing else. -/
  | forwarding
  /-- It takes no notice. -/
  | ignoring
  deriving DecidableEq, Repr

/-- A call that a host makes at the `left`-th update of a sprite from now. -/
structure Reaction where
  sprite : SpriteId
  left : Nat
  call : Call

/-- What a host has recorded. -/
inductive Event where
  /-- An update, and when it came. -/
  | update (u : Update) (time : Nat)
  | removed (id : SpriteId) (target : String)
  /-- The answer to a call that the host made in reaction. -/
  | reaction (answer : Answer)

/-- A host: how it listens, the reactions that still wait, and what it has recorded, the latest
first. -/
structure Audience where
  listening : Listening
  waiting : List Reaction
  recorded : List Event

namespace Audience

/-- A host that has heard nothing yet. -/
def new (listening : Listening) (reactions : List Reaction) : Audience :=
  ⟨listening, if listening = .recording then reactions else [], []⟩

variable (a : Audience)

/-- Records an event. -/
def record (e : Event) : Audience := { a with recorded := e :: a.recorded }

/-- The calls that wait for exactly this update of a sprite. -/
def triggered (id : SpriteId) : List Call :=
  (a.waiting.filter fun r => r.sprite = id ∧ r.left = 1).map (·.call)

/-- The reactions that go on waiting after an update of a sprite. -/
def countDown (id : SpriteId) : List Reaction :=
  (a.waiting.filter fun r => ¬(r.sprite = id ∧ r.left = 1)).map fun r =>
    if r.sprite = id then { r with left := r.left - 1 } else r

/-- Hears a notice, and gives the calls that it reacts with. -/
def hear (now : Nat) : Notice → List Call × Audience
  | .update u =>
    if a.listening = .ignoring then ([], a)
    else (a.triggered u.id, { a with waiting := a.countDown u.id }.record (.update u now))
  | .removed id target =>
    if a.listening = .recording then ([], a.record (.removed id target)) else ([], a)

theorem length_countDown (id : SpriteId) :
    (a.triggered id).length + (a.countDown id).length = a.waiting.length := by
  simp only [triggered, countDown, List.length_map, ← List.countP_eq_length_filter]
  rw [List.length_eq_countP_add_countP (fun r => decide (r.sprite = id ∧ r.left = 1))]
  simp

/-- Every call is a reaction that no longer waits. -/
theorem length_hear (now : Nat) (n : Notice) :
    (a.hear now n).1.length + (a.hear now n).2.waiting.length = a.waiting.length := by
  cases n with
  | update u =>
    simp only [hear]
    split
    · simp
    · exact a.length_countDown u.id
  | removed id target =>
    simp only [hear]
    split <;> simp [record]

end Audience

end SpriteCanvas
