import SpriteCanvas.Proofs.Doubles
import SpriteCanvas.Proofs.Frame

/-!
# Thresholds out of reach

A distance is never below zero (`Binary64.sign?_hypot`).  So at a threshold that is not a number, or
not above zero, nobody touches anybody (`Detector.touches_eq_false`): a scan and a drain strike
nobody, and a block does what it says and nothing else (`World.execute_untouched`).
-/

namespace SpriteCanvas

namespace Binary64

open Float.Model
open Float.Model.UnpackedFloat (Sign roundWithAccuracy)

theorem sign?_roundWithAccuracy (s : Sign) (m : Nat) (e : Int) (a : UnpackedFloat.Accuracy) :
    sign? (roundWithAccuracy Format.binary64 s m e a) = some s := by
  simp only [roundWithAccuracy]
  split <;> rfl

theorem sign?_sqrtScaled (m : Nat) (e : Int) :
    sign? (sqrtScaled m e).toModel.unpack = some .positive := by
  unfold sqrtScaled
  split
  · exact (sign?_unpack_pack _).trans (sign?_roundWithAccuracy _ _ _ _)
  · rfl

/-- A distance is a number that is not below zero, or not a number. -/
theorem sign?_hypot (x y : Float) : sign? (hypot x y).toModel.unpack ≠ some .negative := by
  unfold hypot
  split
  · dsimp only
    rw [sign?_sqrtScaled]
    exact nofun
  · split
    · exact nofun
    · exact nofun

/-- What is not negative is not below what is not a number or not above zero. -/
theorem lt_eq_false {a b : UnpackedFloat} (ha : sign? a ≠ some .negative)
    (hb : b.isNaN = true ∨ b.le (.zero .positive) = true) : a.lt b = false := by
  rcases b with (_ | _) | _ | _ | ⟨_ | _, n, f, hn⟩
  case infinity.positive | finite.positive => exact absurd hb (by rintro (h | h) <;> cases h)
  all_goals
    rcases a with (_ | _) | _ | (_ | _) | ⟨_ | _, m, e, hm⟩
    all_goals first | rfl | exact absurd rfl ha

/-- No distance is below a threshold that is not a number, or not above zero. -/
theorem not_hypot_lt {t : Float} (ht : t.isNaN = true ∨ t ≤ 0) (x y : Float) : ¬ hypot x y < t := by
  rw [lt_iff, lt_eq_false (sign?_hypot x y) (ht.imp_right le_iff.1)]
  exact Bool.false_ne_true

end Binary64

namespace Detector

/-- No distance is below the threshold: it is not a number, or not above zero. -/
def OutOfReach (d : Detector) : Prop := d.threshold.isNaN = true ∨ d.threshold ≤ 0

variable {d : Detector}

theorem touches_eq_false (h : d.OutOfReach) (p q : Point) :
    d.touches p q = false :=
  decide_eq_false (Binary64.not_hypot_lt h _ _)

theorem pairs_eq_nil (h : d.OutOfReach) :
    ∀ bodies : List Body, d.pairs bodies = []
  | [] => rfl
  | a :: rest => by
    rw [pairs, pairs_eq_nil h rest, List.append_nil, pairsWith, List.map_eq_nil_iff,
      List.filter_eq_nil_iff]
    simp [touches_eq_false h]

theorem partners_eq_nil (h : d.OutOfReach) (id : SpriteId)
    (bodies : List Body) : d.partners id bodies = [] := by
  unfold partners
  split
  · simp [touches_eq_false h]
  · rfl

end Detector

namespace World

variable {settings : Settings} (now : Nat) (w : World)

theorem touchingPairs_eq_nil (h : settings.detector.OutOfReach) :
    w.touchingPairs settings = [] := by
  rw [touchingPairs, Detector.pairs_eq_nil h]

theorem waitingPairs_eq_nil (h : settings.detector.OutOfReach) : w.waitingPairs settings = [] := by
  rw [waitingPairs, List.flatMap_eq_nil_iff]
  intro id _
  rw [Detector.partners_eq_nil h, List.map_nil]

theorem scan_untouched (h : settings.detector.OutOfReach) : w.scan settings now = (w, [], 0) := by
  rw [scan, touchingPairs_eq_nil w h]
  rfl

theorem drain_untouched (h : settings.detector.OutOfReach) :
    w.drain settings now = ({ w with checks := .empty }, [], 0) := by
  rw [drain, waitingPairs_eq_nil w h]
  rfl

theorem execute_untouched (h : settings.detector.OutOfReach) (m : Member) (c : Command) :
    w.execute settings now m c
      = (w.apply settings now m c, (w.apply settings now m c).notice m.id (changesOf c)) := by
  unfold execute
  dsimp only
  split
  · rw [scan_untouched now _ h, List.append_nil]
  · rfl

end World

end SpriteCanvas
