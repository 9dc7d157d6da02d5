import SpriteCanvas.Proofs.Chronicle
import SpriteCanvas.Proofs.Lookup

/-!
# What deeds leave alone

Only a registration, a change of script and a removal touch more of a member than its figure
(`perform_redrawn`, `part?_perform`), of the others only a performer's mark changes whether a sprite
is in a loop (`perform_redraws`), and only a beginning, a stop and an end touch the runs
(`perform_runs`).  A struck figure differs in its facing and its highlight and in nothing else.
-/

namespace SpriteCanvas

namespace Cast

/-- Nothing but figures changed, and each of them as `R` says. -/
def Redraws (R : Figure → Figure → Prop) (c c' : Cast) : Prop :=
  ∃ f : Member → Figure, c' = c.mapFigures f ∧ ∀ m, R m.figure (f m)

/-- Nothing but figures changed. -/
abbrev Redrawn : Cast → Cast → Prop := Redraws fun _ _ => True

variable {R : Figure → Figure → Prop} {c c' c'' : Cast} {id : SpriteId} {m : Member}

theorem mapFigures_figure (c : Cast) : c.mapFigures (·.figure) = c := by
  simp [mapFigures]

theorem mapFigures_mapFigures (f g : Member → Figure) :
    (c.mapFigures f).mapFigures g = c.mapFigures fun m => g { m with figure := f m } := by
  simp [mapFigures]

theorem Redraws.refl (hR : ∀ f, R f f) (c : Cast) : c.Redraws R c :=
  ⟨(·.figure), (mapFigures_figure c).symm, fun m => hR m.figure⟩

theorem Redraws.trans (hR : ∀ {f g h}, R f g → R g h → R f h) (h : c.Redraws R c')
    (h' : c'.Redraws R c'') : c.Redraws R c'' := by
  obtain ⟨f, rfl, hf⟩ := h
  obtain ⟨g, rfl, hg⟩ := h'
  exact ⟨_, mapFigures_mapFigures f g, fun m => hR (hf m) (hg { m with figure := f m })⟩

theorem Redraws.mono {S : Figure → Figure → Prop} (hRS : ∀ f g, R f g → S f g)
    (h : c.Redraws R c') : c.Redraws S c' := by
  obtain ⟨f, rfl, hf⟩ := h
  exact ⟨f, rfl, fun m => hRS _ _ (hf m)⟩

theorem Redraws.redrawn (h : c.Redraws R c') : c.Redrawn c' := h.mono fun _ _ _ => trivial

theorem redraws_mapFigures {f : Member → Figure} (hf : ∀ m, R m.figure (f m)) :
    c.Redraws R (c.mapFigures f) :=
  ⟨f, rfl, hf⟩

theorem redraws_update (f : Figure → Figure) (hR : ∀ f, R f f) (hf : ∀ g, R g (f g)) :
    c.Redraws R (c.update id f) := by
  refine redraws_mapFigures fun m => ?_
  split
  · exact hf m.figure
  · exact hR m.figure

theorem Redrawn.rfl : c.Redrawn c := Redraws.refl (fun _ => trivial) c

theorem redrawn_mapFigures (f : Member → Figure) : c.Redrawn (c.mapFigures f) :=
  redraws_mapFigures fun _ => trivial

theorem redrawn_update (id : SpriteId) (f : Figure → Figure) : c.Redrawn (c.update id f) :=
  redrawn_mapFigures _

theorem redrawn_updateCurrent (generation : Nat) (f : Figure → Figure) :
    c.Redrawn (c.updateCurrent id generation f) := by
  unfold updateCurrent
  split
  · exact redrawn_update id f
  · exact .rfl

theorem Redraws.find?_some (h : c.Redraws R c') (hc : c.find? id = some m) :
    ∃ g, R m.figure g ∧ c'.find? id = some { m with figure := g } := by
  obtain ⟨f, rfl, hf⟩ := h
  exact ⟨f m, hf m, by simp [hc]⟩

theorem Redraws.isSome_find?_eq (h : c.Redraws R c') (id : SpriteId) :
    (c'.find? id).isSome = (c.find? id).isSome := by
  obtain ⟨f, rfl, -⟩ := h
  rw [find?_mapFigures, Option.isSome_map]

theorem Redraws.bodies_eq (h : c.Redraws R c') (hR : ∀ f g, R f g → g.position = f.position) :
    c'.bodies = c.bodies := by
  obtain ⟨f, rfl, hf⟩ := h
  simp [bodies, mapFigures, Function.comp_def, fun m => hR _ _ (hf m)]

end Cast

/-- What a member has beside its figure. -/
def Member.part (m : Member) : String × Script × Nat := (m.target, m.script, m.generation)

/-- What the sprite of a name has beside its figure. -/
def Cast.part? (c : Cast) (id : SpriteId) : Option (String × Script × Nat) :=
  (c.find? id).map (·.part)

theorem Cast.Redraws.part?_eq {R : Figure → Figure → Prop} {c c' : Cast} (h : c.Redraws R c')
    (id : SpriteId) : c'.part? id = c.part? id := by
  obtain ⟨f, rfl, -⟩ := h
  simp [part?, Function.comp_def, Member.part]

theorem Cast.isCurrent_eq (c : Cast) (id : SpriteId) (generation : Nat) :
    c.isCurrent id generation = (c.part? id).any (·.2.2 = generation) := by
  simp only [isCurrent, part?, Option.any_map, Member.part]

/-- The first figure struck any number of times can become the second one. -/
def Figure.Struck (f g : Figure) : Prop :=
  g = { f with facing := g.facing, highlight := g.highlight }

theorem Figure.Struck.refl (f : Figure) : f.Struck f := rfl

theorem Figure.Struck.bubble_eq {f g : Figure} (h : f.Struck g) : g.bubble = f.bubble := by
  unfold Struck at h
  rw [h]

theorem Figure.Struck.position_eq {f g : Figure} (h : f.Struck g) : g.position = f.position := by
  unfold Struck at h
  rw [h]

theorem Figure.Struck.trans {f g h : Figure} (hfg : f.Struck g) (hgh : g.Struck h) :
    f.Struck h := by
  unfold Struck at *
  rw [hgh, hfg]

/-- The figures are both in a loop or both outside. -/
def Figure.MarkedAs (f g : Figure) : Prop := g.looping = f.looping

theorem Figure.MarkedAs.refl (f : Figure) : f.MarkedAs f := rfl

theorem Figure.MarkedAs.trans {f g h : Figure} (hfg : f.MarkedAs g) (hgh : g.MarkedAs h) :
    f.MarkedAs h := Eq.trans hgh hfg

theorem Figure.Struck.markedAs (f g : Figure) (h : f.Struck g) : f.MarkedAs g := by
  unfold Struck at h
  rw [MarkedAs, h]

namespace World

variable (settings : Settings) (now : Nat) (w : World)

/-! ## Strikes -/

theorem strike_redraws (id : SpriteId) :
    w.cast.Redraws Figure.Struck (w.strike settings now id).1.cast := by
  unfold strike
  split
  · exact .refl Figure.Struck.refl _
  · exact Cast.redraws_update _ Figure.Struck.refl fun f => (rfl : f.Struck (f.strike _))

theorem strike_runs (id : SpriteId) : (w.strike settings now id).1.runs = w.runs := by
  unfold strike
  split <;> rfl

theorem strikeAll_redraws : ∀ (ids : List SpriteId) (w : World),
    w.cast.Redraws Figure.Struck (strikeAll settings now ids w).1.cast
  | [], _ => .refl Figure.Struck.refl _
  | id :: ids, w =>
    (strike_redraws settings now w id).trans Figure.Struck.trans (strikeAll_redraws ids _)

theorem strikeAll_runs : ∀ (ids : List SpriteId) (w : World),
    (strikeAll settings now ids w).1.runs = w.runs
  | [], _ => rfl
  | id :: ids, w => (strikeAll_runs ids _).trans (strike_runs settings now w id)

theorem scan_redraws : w.cast.Redraws Figure.Struck (w.scan settings now).1.cast :=
  strikeAll_redraws settings now _ w

theorem scan_runs : (w.scan settings now).1.runs = w.runs := strikeAll_runs settings now _ w

theorem drain_redraws : w.cast.Redraws Figure.Struck (w.drain settings now).1.cast :=
  strikeAll_redraws settings now _ _

theorem drain_runs : (w.drain settings now).1.runs = w.runs := strikeAll_runs settings now _ _

/-! ## Blocks, stops and alarms -/

theorem apply_redraws (m : Member) (c : Command) :
    w.cast.Redraws Figure.MarkedAs (w.apply settings now m c).cast := by
  have hidle : w.cast.Redraws Figure.MarkedAs w.cast := .refl Figure.MarkedAs.refl w.cast
  have hupdate : ∀ f : Figure → Figure, (∀ g : Figure, g.MarkedAs (f g)) →
      w.cast.Redraws Figure.MarkedAs (w.cast.update m.id f) := fun f hf =>
    Cast.redraws_update f Figure.MarkedAs.refl hf
  cases c with
  | move steps =>
    have hwalk : ∀ g : Figure, g.MarkedAs (g.walk steps) := fun g => by
      unfold Figure.walk
      split <;> rfl
    simp only [apply]
    split <;> exact hupdate _ hwalk
  | turn degrees => exact hupdate (·.turn degrees) fun g => rfl
  | goTo x y => exact hupdate (·.goTo x y) fun g => rfl
  | say text secs => exact hupdate (·.say text w.alarms.next) fun g => rfl
  | think text secs => exact hupdate (·.say text w.alarms.next) fun g => rfl
  | loop times => exact hidle
  | unknown name value => exact hidle

theorem apply_runs (m : Member) (c : Command) : (w.apply settings now m c).runs = w.runs := by
  cases c with
  | move steps =>
    simp only [apply]
    split <;> rfl
  | _ => rfl

theorem execute_redraws (m : Member) (c : Command) :
    w.cast.Redraws Figure.MarkedAs (w.execute settings now m c).1.cast := by
  unfold execute
  dsimp only
  split
  · exact (apply_redraws settings now w m c).trans Figure.MarkedAs.trans
      ((scan_redraws settings now _).mono Figure.Struck.markedAs)
  · exact apply_redraws settings now w m c

theorem execute_runs (m : Member) (c : Command) :
    (w.execute settings now m c).1.runs = w.runs := by
  unfold execute
  dsimp only
  split
  · exact (scan_runs settings now _).trans (apply_runs settings now w m c)
  · exact apply_runs settings now w m c

theorem ring_redraws (alarm : AlarmId) (expiry : Expiry) :
    w.cast.Redraws Figure.MarkedAs (w.ring alarm expiry).1.cast := by
  have hidle : w.cast.Redraws Figure.MarkedAs w.cast := .refl Figure.MarkedAs.refl w.cast
  unfold ring
  split
  · exact hidle
  · cases expiry with
    | message id =>
      dsimp only
      split
      · exact Cast.redraws_update (·.hush) Figure.MarkedAs.refl fun g => rfl
      · exact hidle
    | highlight id =>
      dsimp only
      split
      · exact Cast.redraws_update (·.dim) Figure.MarkedAs.refl fun g => rfl
      · exact hidle

theorem ring_runs (alarm : AlarmId) (expiry : Expiry) :
    (w.ring alarm expiry).1.runs = w.runs := by
  unfold ring
  split
  · rfl
  · cases expiry <;> dsimp only <;> split <;> rfl

/-! ## Deeds -/

end World

/-- The sprite of which a call touches more than the figure. -/
def Call.recast? : Call → Option SpriteId
  | .register id _ _ _ | .unregister id | .setScript id _ => some id
  | _ => none

/-- The sprite of which a deed touches more than the figure. -/
def Deed.recast? : Deed → Option SpriteId
  | .answer c => c.recast?
  | _ => none

theorem Deed.eq_answer_of_recast? {d : Deed} {id : SpriteId} (h : d.recast? = some id) :
    ∃ c, d = .answer c ∧ c.recast? = some id := by
  cases d with
  | answer c => exact ⟨c, rfl, h⟩
  | _ => cases h

/-- What a deed does to the runs. -/
def RunBook.perform (b : RunBook) : Deed → RunBook
  | .answer .stop => b.stop
  | .begin _ => (b.begin?.map (·.2)).getD b
  | .finish run => b.finish run
  | _ => b

namespace RunBook

variable (b : RunBook)

/-- What a deed can be to the runs. -/
theorem perform_cases (d : Deed) :
    b.perform d = b ∨ (d = .answer .stop ∧ b.perform d = b.stop)
      ∨ ((∃ run, d = .begin run) ∧ b.live = none
        ∧ b.perform d = { b with begun := b.begun + 1, live := some b.begun })
      ∨ ∃ run, d = .finish run ∧ b.perform d = b.finish run := by
  cases d with
  | answer c =>
    cases c with
    | stop => exact .inr (.inl ⟨rfl, rfl⟩)
    | _ => exact .inl rfl
  | begin run =>
    rcases hl : b.live with _ | r
    · exact .inr (.inr (.inl ⟨⟨run, rfl⟩, rfl, by simp [perform, begin?, hl]⟩))
    · exact .inl (by simp [perform, begin?, hl])
  | finish run => exact .inr (.inr (.inr ⟨run, rfl, rfl⟩))
  | _ => exact .inl rfl

theorem outcome?_finish (r run : RunId) :
    (b.finish r).outcome? run = if run = r then some (b.outcomeOf r) else b.outcome? run := by
  by_cases hr : run = r
  · subst hr
    simp [finish, outcome?]
  · have hne : (run == r) = false := by simpa using hr
    simp [finish, outcome?, List.lookup_cons, hr, hne]

end RunBook

namespace World

variable (settings : Settings) (now : Nat) (w : World)

theorem unregister_cast (id : SpriteId) : (w.unregister id).1.cast = w.cast.remove id := by
  unfold unregister
  dsimp only
  split <;> rfl

theorem unregister_runs (id : SpriteId) : (w.unregister id).1.runs = w.runs := by
  unfold unregister
  dsimp only
  split <;> rfl

theorem reply_redraws {c : Call} (h : c.recast? = none) :
    w.cast.Redraws Figure.MarkedAs (w.reply settings now c).world.cast := by
  have hidle : w.cast.Redraws Figure.MarkedAs w.cast := .refl Figure.MarkedAs.refl w.cast
  cases c with
  | register | unregister | setScript => cases h
  | setPosition id position =>
    exact Cast.redraws_update (fun f => { f with position := position }) Figure.MarkedAs.refl
      fun g => rfl
  | queueCheck id =>
    simp only [reply]
    split <;> exact hidle
  | checkAll => exact (scan_redraws settings now w).mono Figure.Struck.markedAs
  | drainChecks => exact (drain_redraws settings now w).mono Figure.Struck.markedAs
  | stop => exact Cast.redraws_mapFigures (f := (·.figure.hush)) fun m => rfl
  | _ => exact hidle

theorem reply_runs (c : Call) :
    (w.reply settings now c).world.runs = w.runs.perform (.answer c) := by
  cases c with
  | unregister id => exact unregister_runs w id
  | queueCheck id =>
    simp only [reply]
    split <;> rfl
  | checkAll => exact scan_runs settings now w
  | drainChecks => exact drain_runs settings now w
  | _ => rfl

/-- A deed that recasts nobody changes nothing of the cast but figures, and if it is no mark, takes
none of them into a loop or out of it. -/
theorem perform_redraws {d : Deed} (h : d.recast? = none)
    (hmark : ∀ r looping, d ≠ .mark r looping) :
    w.cast.Redraws Figure.MarkedAs (w.perform settings now d).1.cast := by
  have hidle : w.cast.Redraws Figure.MarkedAs w.cast := .refl Figure.MarkedAs.refl w.cast
  cases d with
  | answer c => exact reply_redraws settings now w h
  | begin run =>
    simp only [perform]
    split <;> exact hidle
  | execute r b =>
    simp only [perform]
    split
    · exact execute_redraws settings now w _ _
    · exact hidle
  | mark r looping => exact absurd rfl (hmark r looping)
  | drain r => exact (drain_redraws settings now w).mono Figure.Struck.markedAs
  | ring alarm expiry => exact ring_redraws w alarm expiry
  | _ => exact hidle

/-- A deed that recasts nobody changes nothing of the cast but figures. -/
theorem perform_redrawn {d : Deed} (h : d.recast? = none) :
    w.cast.Redrawn (w.perform settings now d).1.cast := by
  cases d with
  | mark r looping => exact Cast.redrawn_updateCurrent _ _
  | _ => exact (perform_redraws settings now w h nofun).redrawn

theorem perform_runs (d : Deed) : (w.perform settings now d).1.runs = w.runs.perform d := by
  cases d with
  | answer c => exact reply_runs settings now w c
  | begin run =>
    simp only [perform, RunBook.perform]
    split
    · rename_i h
      simp [h]
    · rename_i h
      simp [h]
  | execute r b =>
    simp only [perform]
    split
    · exact execute_runs settings now w _ _
    · rfl
  | drain r => exact drain_runs settings now w
  | ring alarm expiry => exact ring_runs w alarm expiry
  | _ => rfl

/-- A deed that does not recast a sprite leaves its target, script and generation. -/
theorem part?_perform {d : Deed} {id : SpriteId} (h : d.recast? ≠ some id) :
    (w.perform settings now d).1.cast.part? id = w.cast.part? id := by
  rcases hd : d.recast? with _ | i
  · exact (perform_redrawn settings now w hd).part?_eq id
  · have hi : id ≠ i := fun hi => h (hi ▸ hd)
    cases d with
    | answer c =>
      cases c with
      | register j position script target =>
        cases hd
        simp only [perform, reply, Cast.part?, Cast.find?_register_of_ne hi]
      | unregister j =>
        cases hd
        simp only [perform, reply, Cast.part?, unregister_cast, Cast.find?_remove, if_neg hi]
      | setScript j script =>
        cases hd
        simp only [perform, reply, Cast.part?, Cast.find?_setScript_of_ne hi]
      | _ => cases hd
    | _ => cases hd

end World

end SpriteCanvas
