import SpriteCanvas.Proofs.Frame

/-!
# A sprite on its own

With one sprite on the canvas nothing is ever struck, so a block does to the figure what the block
itself says (`World.execute_solo`), and whatever is not a call or a block leaves the figure where
it stands (`World.perform_solo`).
-/

namespace SpriteCanvas

namespace Figure

/-- What a command does to where a figure stands. -/
def enact (f : Figure) : Command → Figure
  | .move steps => f.walk steps
  | .turn degrees => f.turn degrees
  | .goTo x y => f.goTo x y
  | .say _ _ | .think _ _ | .loop _ | .unknown _ _ => f

/-- What blocks do one after the other to where a figure stands. -/
def enactAll (f : Figure) (script : Script) : Figure :=
  script.foldl (fun f b => f.enact b.command) f

/-- Both figures are at one place and point and face the same way. -/
def StandsAs (f g : Figure) : Prop :=
  g.position = f.position ∧ g.heading = f.heading ∧ g.facing = f.facing

variable {f g h : Figure}

theorem StandsAs.refl (f : Figure) : f.StandsAs f := ⟨rfl, rfl, rfl⟩

theorem StandsAs.trans (hfg : f.StandsAs g) (hgh : g.StandsAs h) : f.StandsAs h :=
  ⟨hgh.1.trans hfg.1, hgh.2.1.trans hfg.2.1, hgh.2.2.trans hfg.2.2⟩

theorem enactAll_append (f : Figure) (s t : Script) :
    f.enactAll (s ++ t) = (f.enactAll s).enactAll t :=
  List.foldl_append

theorem facing_enact (f : Figure) (c : Command) : (f.enact c).facing = f.facing := by
  cases c with
  | move steps =>
    simp only [enact, walk]
    split <;> rfl
  | _ => rfl

theorem facing_enactAll (f : Figure) (s : Script) : (f.enactAll s).facing = f.facing := by
  induction s generalizing f with
  | nil => rfl
  | cons b s ih => exact (ih (f.enact b.command)).trans (facing_enact f b.command)

/-- What a command does depends on where a figure stands, and on nothing else. -/
theorem StandsAs.enact (hfg : f.StandsAs g) (c : Command) : (f.enact c).StandsAs (g.enact c) := by
  obtain ⟨hp, hh, hf⟩ := hfg
  cases c with
  | move steps =>
    simp only [Figure.enact, walk]
    split
    · exact ⟨by rw [hp, hh, hf], hh, hf⟩
    · exact ⟨hp, hh, hf⟩
  | turn degrees => exact ⟨hp, by simp only [Figure.enact, Figure.turn, hh], hf⟩
  | goTo x y => exact ⟨by simp only [Figure.enact, Figure.goTo, hp], hh, hf⟩
  | _ => exact ⟨hp, hh, hf⟩

end Figure

namespace Cast

variable {c c' : Cast} {m : Member} {R : Figure → Figure → Prop}

theorem Redraws.solo (h : c.Redraws R c') (hc : c.members = [m]) :
    ∃ g, c'.members = [{ m with figure := g }] ∧ R m.figure g := by
  obtain ⟨f, rfl, hf⟩ := h
  exact ⟨f m, by simp [mapFigures, hc], hf m⟩

theorem update_solo (hc : c.members = [m]) (f : Figure → Figure) :
    (c.update m.id f).members = [{ m with figure := f m.figure }] := by
  simp [update, mapFigures, hc]

end Cast

namespace World

variable (settings : Settings) (now : Nat) {w : World} {m : Member}

theorem scan_solo (h : w.cast.members = [m]) : w.scan settings now = (w, [], 0) := by
  have hp : w.touchingPairs settings = [] := by
    simp [touchingPairs, Cast.bodies, h, Detector.pairs, Detector.pairsWith]
  rw [scan, hp]
  rfl

theorem drain_solo (h : w.cast.members = [m]) :
    (w.drain settings now).1 = { w with checks := .empty } := by
  have hp : w.waitingPairs settings = [] := by
    refine List.flatMap_eq_nil_iff.2 fun id _ => ?_
    have hnone : settings.detector.partners id w.cast.bodies = [] := by
      simp only [Cast.bodies, h, Detector.partners, List.map_cons, List.map_nil, List.find?_cons,
        List.find?_nil]
      by_cases hid : m.id = id <;> simp [hid]
    rw [hnone]
    rfl
  rw [drain, hp]
  rfl

/-- Alone, a sprite does what its block says. -/
theorem execute_solo (h : w.cast.members = [m]) (c : Command) :
    ∃ g, (w.execute settings now m c).1.cast.members = [{ m with figure := g }]
      ∧ (m.figure.enact c).StandsAs g := by
  have happly : ∃ g, (w.apply settings now m c).cast.members = [{ m with figure := g }]
      ∧ (m.figure.enact c).StandsAs g := by
    cases c with
    | move steps =>
      refine ⟨m.figure.walk steps, ?_, .refl _⟩
      simp only [apply]
      split <;> exact Cast.update_solo h (·.walk steps)
    | turn degrees => exact ⟨_, Cast.update_solo h (·.turn degrees), .refl _⟩
    | goTo x y => exact ⟨_, Cast.update_solo h (·.goTo x y), .refl _⟩
    | say text secs => exact ⟨_, Cast.update_solo h (·.say text w.alarms.next), .refl _⟩
    | think text secs => exact ⟨_, Cast.update_solo h (·.say text w.alarms.next), .refl _⟩
    | loop times => exact ⟨m.figure, h, .refl _⟩
    | unknown name value => exact ⟨m.figure, h, .refl _⟩
  obtain ⟨g, hg, hs⟩ := happly
  refine ⟨g, ?_, hs⟩
  unfold execute
  dsimp only
  split
  · rw [scan_solo settings now hg]
    exact hg
  · exact hg

/-- Alone, a sprite stays as it stands while no block is executed and nothing is called. -/
theorem perform_solo (h : w.cast.members = [m]) {d : Deed} (hc : ∀ c, d ≠ .answer c)
    (he : ∀ r b, d ≠ .execute r b) :
    ∃ g, (w.perform settings now d).1.cast.members = [{ m with figure := g }]
      ∧ m.figure.StandsAs g := by
  have hid : ∃ g, w.cast.members = [{ m with figure := g }] ∧ m.figure.StandsAs g :=
    ⟨m.figure, h, .refl _⟩
  cases d with
  | answer c => exact absurd rfl (hc c)
  | execute r b => exact absurd rfl (he r b)
  | begin run =>
    simp only [perform]
    split <;> exact hid
  | mark r looping =>
    refine Cast.Redraws.solo ?_ h
    simp only [perform, setLooping, Cast.updateCurrent]
    split
    · exact Cast.redraws_update _ Figure.StandsAs.refl fun f => ⟨rfl, rfl, rfl⟩
    · exact .refl Figure.StandsAs.refl _
  | drain r =>
    simp only [perform, drain_solo settings now h]
    exact hid
  | ring alarm expiry =>
    simp only [perform, ring]
    split
    · exact hid
    · refine Cast.Redraws.solo ?_ h
      cases expiry with
      | message id =>
        dsimp only
        split
        · exact Cast.redraws_update _ Figure.StandsAs.refl fun f => ⟨rfl, rfl, rfl⟩
        · exact .refl Figure.StandsAs.refl _
      | highlight id =>
        dsimp only
        split
        · exact Cast.redraws_update _ Figure.StandsAs.refl fun f => ⟨rfl, rfl, rfl⟩
        · exact .refl Figure.StandsAs.refl _
  | _ => exact hid

end World

end SpriteCanvas
