import SpriteCanvas.Cast.Figure
import SpriteCanvas.Proximity.Scan
import SpriteCanvas.Script.Command

/-!
# The cast

The registered sprites, in ascending order of their names.  Every registration and every change of
script gives a sprite a new generation, by which a performance knows whether its sprite is still
the one it began with.
-/

namespace SpriteCanvas

/-- A registered sprite: `target` is where the host shows it. -/
structure Member where
  id : SpriteId
  target : String
  figure : Figure
  script : Script
  generation : Nat

/-- The registered sprites and the number of the next generation. -/
structure Cast where
  members : List Member
  sorted : members.Pairwise (·.id < ·.id)
  nextGeneration : Nat

/-- What a registration did. -/
inductive Registration where
  | created
  | reconfigured
  deriving DecidableEq, Repr

/-- The members with `m` added in its place, instead of a member of that name. -/
def Member.insert (m : Member) : List Member → List Member
  | [] => [m]
  | n :: rest =>
    if m.id < n.id then m :: n :: rest
    else if m.id = n.id then m :: rest
    else n :: insert m rest

theorem Member.mem_insert {m a : Member} :
    ∀ {ms : List Member}, a ∈ m.insert ms → a = m ∨ a ∈ ms
  | [], h => by simpa [insert] using h
  | n :: rest, h => by
    simp only [insert] at h
    split at h
    · simpa using h
    · split at h
      · rcases List.mem_cons.1 h with h | h
        · exact .inl h
        · exact .inr (List.mem_cons_of_mem _ h)
      · rcases List.mem_cons.1 h with h | h
        · exact .inr (h ▸ List.mem_cons_self)
        · exact (mem_insert h).imp_right (List.mem_cons_of_mem _)

theorem Member.sorted_insert (m : Member) :
    ∀ {ms : List Member}, ms.Pairwise (·.id < ·.id) → (m.insert ms).Pairwise (·.id < ·.id)
  | [], _ => by simp [insert]
  | n :: rest, h => by
    obtain ⟨hn, hrest⟩ := List.pairwise_cons.1 h
    simp only [insert]
    split
    · rename_i hlt
      refine List.pairwise_cons.2 ⟨fun a ha => ?_, h⟩
      rcases List.mem_cons.1 ha with rfl | ha
      · exact hlt
      · exact String.lt_trans hlt (hn a ha)
    · split
      · rename_i heq
        exact List.pairwise_cons.2 ⟨fun a ha => heq ▸ hn a ha, hrest⟩
      · rename_i hlt hne
        refine List.pairwise_cons.2 ⟨fun a ha => ?_, sorted_insert m hrest⟩
        rcases mem_insert ha with rfl | ha
        · exact Std.lt_of_le_of_ne (String.not_lt.1 hlt) (fun h => hne h.symm)
        · exact hn a ha

namespace Cast

/-- Nobody is registered. -/
def empty : Cast := ⟨[], .nil, 1⟩

variable (c : Cast)

/-- The member of a name. -/
def find? (id : SpriteId) : Option Member := c.members.find? (·.id = id)

/-- The names. -/
def ids : List SpriteId := c.members.map (·.id)

/-- Where everybody is. -/
def bodies : List Body := c.members.map fun m => (m.id, m.figure.position)

/-- Whether the sprite of a name is registered with a given generation. -/
def isCurrent (id : SpriteId) (generation : Nat) : Bool :=
  (c.find? id).any (·.generation = generation)

/-- Changes every figure. -/
def mapFigures (f : Member → Figure) : Cast where
  members := c.members.map fun m => { m with figure := f m }
  sorted := List.pairwise_map.2 c.sorted
  nextGeneration := c.nextGeneration

/-- Changes the figure of one name. -/
def update (id : SpriteId) (f : Figure → Figure) : Cast :=
  c.mapFigures fun m => if m.id = id then f m.figure else m.figure

/-- Changes the figure of a name if it has a given generation. -/
def updateCurrent (id : SpriteId) (generation : Nat) (f : Figure → Figure) : Cast :=
  if c.isCurrent id generation then c.update id f else c

/-- The cast with `m` in the place of its name. -/
def put (m : Member) : Cast where
  members := m.insert c.members
  sorted := m.sorted_insert c.sorted
  nextGeneration := c.nextGeneration

/-- The cast with one more generation given out. -/
def bump : Cast := { c with nextGeneration := c.nextGeneration + 1 }

/-- Registers a sprite.  One that is known keeps its heading, facing, message and highlight. -/
def register (id : SpriteId) (target : String) (position : Point) (script : Script) :
    Registration × Cast :=
  match c.find? id with
  | some m =>
    (.reconfigured, c.bump.put { m with
      target := target
      figure := { m.figure with position := position, looping := false }
      script := script
      generation := c.nextGeneration })
  | none => (.created, c.bump.put ⟨id, target, .new position, script, c.nextGeneration⟩)

/-- Gives a sprite another script, and tells whether it is known.  A generation is used up in
either case. -/
def setScript (id : SpriteId) (script : Script) : Bool × Cast :=
  match c.find? id with
  | some m =>
    (true, c.bump.put { m with
      figure := { m.figure with looping := false }
      script := script
      generation := c.nextGeneration })
  | none => (false, c.bump)

/-- Takes out the sprite of a name. -/
def remove (id : SpriteId) : Cast where
  members := c.members.filter (·.id ≠ id)
  sorted := c.sorted.filter _
  nextGeneration := c.nextGeneration

end Cast

end SpriteCanvas
