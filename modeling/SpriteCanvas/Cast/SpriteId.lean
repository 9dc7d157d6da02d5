/-!
# Names of sprites

A host names its sprites by texts, which are ordered by code points.
-/

namespace SpriteCanvas

/-- The name of a sprite. -/
abbrev SpriteId := String

/-- Names in ascending order. -/
def SpriteId.sort (ids : List SpriteId) : List SpriteId :=
  ids.mergeSort fun a b => a ≤ b

end SpriteCanvas
