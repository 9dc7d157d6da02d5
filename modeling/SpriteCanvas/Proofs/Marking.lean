import SpriteCanvas.Proofs.Endings
import SpriteCanvas.Proofs.Renewal

/-!
# Marks

A mark says that a sprite is in a loop, and only performers make or remove one.  All else that
happens leaves a sprite its mark, or gives it a generation that no performer has and no mark
(`World.keepsMarks_perform`).  So a turn keeps marks and performers in step, if the others of the
sprite that are in loops were stopped (`Marked.turn`).
-/

namespace SpriteCanvas

/-! ## What leaves marks alone -/

namespace Cast

/-- One cast can become the other without marking: every sprite keeps its generation and its mark,
or has a generation that is given out in between and no mark. -/
structure KeepsMarks (c c' : Cast) : Prop where
  next_le : c.nextGeneration ≤ c'.nextGeneration
  member : ∀ id m', c'.find? id = some m' →
    (∃ m, c.find? id = some m ∧ m.generation = m'.generation
        ∧ m.figure.looping = m'.figure.looping)
      ∨ (c.nextGeneration ≤ m'.generation ∧ m'.figure.looping = false)

variable {c c' c'' : Cast} {id : SpriteId} {m : Member}

theorem KeepsMarks.refl (c : Cast) : c.KeepsMarks c :=
  ⟨Nat.le_refl _, fun _ m hm => .inl ⟨m, hm, rfl, rfl⟩⟩

theorem KeepsMarks.trans (h : c.KeepsMarks c') (h' : c'.KeepsMarks c'') : c.KeepsMarks c'' := by
  refine ⟨Nat.le_trans h.next_le h'.next_le, fun id m'' hm'' => ?_⟩
  rcases h'.member id m'' hm'' with ⟨m', hm', hg', hl'⟩ | ⟨hle, hl'⟩
  · rcases h.member id m' hm' with ⟨m, hm, hg, hl⟩ | ⟨hle, hl⟩
    · exact .inl ⟨m, hm, hg.trans hg', hl.trans hl'⟩
    · exact .inr ⟨hg' ▸ hle, hl' ▸ hl⟩
  · exact .inr ⟨Nat.le_trans h.next_le hle, hl'⟩

theorem Redraws.keepsMarks (h : c.Redraws Figure.MarkedAs c') : c.KeepsMarks c' := by
  obtain ⟨f, rfl, hf⟩ := h
  refine ⟨Nat.le_refl _, fun id m' hm' => .inl ?_⟩
  rw [find?_mapFigures] at hm'
  obtain ⟨m, hm, rfl⟩ := Option.map_eq_some_iff.1 hm'
  exact ⟨m, hm, rfl, (hf m).symm⟩

theorem keepsMarks_register (c : Cast) (id : SpriteId) (target : String) (position : Point)
    (script : Script) : c.KeepsMarks (c.register id target position script).2 := by
  have hn := nextGeneration_register c id target position script
  refine ⟨hn ▸ Nat.le_succ _, fun i m' hm' => ?_⟩
  by_cases hi : i = id
  · subst hi
    refine .inr ⟨Nat.le_of_eq (generation_register hm').symm, ?_⟩
    rcases hm : c.find? i with _ | m
    · rw [find?_register_of_none hm] at hm'
      obtain rfl := Option.some.inj hm'
      rfl
    · rw [find?_register_of_some hm] at hm'
      obtain rfl := Option.some.inj hm'
      rfl
  · rw [find?_register_of_ne hi] at hm'
    exact .inl ⟨m', hm', rfl, rfl⟩

theorem keepsMarks_setScript (c : Cast) (id : SpriteId) (script : Script) :
    c.KeepsMarks (c.setScript id script).2 := by
  have hn := nextGeneration_setScript c id script
  refine ⟨hn ▸ Nat.le_succ _, fun i m' hm' => ?_⟩
  by_cases hi : i = id
  · subst hi
    rw [find?_setScript_self] at hm'
    obtain ⟨m, -, rfl⟩ := Option.map_eq_some_iff.1 hm'
    exact .inr ⟨Nat.le_refl _, rfl⟩
  · rw [find?_setScript_of_ne hi] at hm'
    exact .inl ⟨m', hm', rfl, rfl⟩

theorem keepsMarks_remove (c : Cast) (id : SpriteId) : c.KeepsMarks (c.remove id) := by
  refine ⟨Nat.le_refl _, fun i m' hm' => ?_⟩
  rw [find?_remove] at hm'
  split at hm'
  · cases hm'
  · exact .inl ⟨m', hm', rfl, rfl⟩

end Cast

/-- One world can become the other without marking: so can its cast, and runs stay stopped. -/
structure World.KeepsMarks (w w' : World) : Prop where
  cast : w.cast.KeepsMarks w'.cast
  stopped : ∀ run ∈ w.runs.stopped, run ∈ w'.runs.stopped

section

variable (settings : Settings) (now : Nat)

theorem World.keepsMarks_perform (w : World) {d : Deed}
    (hmark : ∀ r looping, d ≠ .mark r looping) : w.KeepsMarks (w.perform settings now d).1 where
  cast := by
    rcases hd : d.recast? with _ | i
    · exact (perform_redraws settings now w hd hmark).keepsMarks
    · cases d with
      | answer c =>
        cases c with
        | register id position script target =>
          exact Cast.keepsMarks_register w.cast id target position script
        | unregister id =>
          simp only [perform, reply, unregister_cast]
          exact Cast.keepsMarks_remove w.cast id
        | setScript id script => exact Cast.keepsMarks_setScript w.cast id script
        | _ => cases hd
      | _ => cases hd
  stopped run hrun := by
    rw [perform_runs]
    exact RunBook.mem_stopped_perform hrun d

theorem Moment.keepsMarks_after {log : List Entry}
    (hlog : ∀ e ∈ log, ∀ r looping, e.deed ≠ .mark r looping) (n : Moment) :
    n.world.KeepsMarks (n.after settings log).world := by
  induction log generalizing n with
  | nil => exact ⟨.refl _, fun _ h => h⟩
  | cons e log ih =>
    have he := n.world.keepsMarks_perform settings e.time (hlog e List.mem_cons_self)
    have hrest := ih (fun e' he' => hlog e' (List.mem_cons_of_mem e he')) (n.perform settings e)
    exact ⟨he.cast.trans hrest.cast, fun run hr => hrest.stopped run (he.stopped run hr)⟩

namespace Scene

/-- Deeds of which none is a mark leave marks alone, whatever the host does then. -/
theorem keepsMarks_performAll (s : Scene) (ds : List Deed)
    (hds : ∀ d ∈ ds, ∀ r looping, d ≠ .mark r looping) :
    s.world.KeepsMarks (s.performAll settings now ds).world := by
  have hlog : ∀ e ∈ s.log settings now ds, ∀ r looping, e.deed ≠ .mark r looping := by
    intro e he r looping hd
    rcases (of_mem_log settings now he).2 with hmem | hrole
    · exact hds _ hmem r looping hd
    · rw [hd] at hrole
      cases hrole
  have hkeeps := Moment.keepsMarks_after settings hlog ⟨now, s.world, [], fun _ => none⟩
  rwa [Moment.world_log ds rfl] at hkeeps

theorem mem_stopped_performAll {run : RunId} {s : Scene} (h : run ∈ s.world.runs.stopped)
    (ds : List Deed) : run ∈ (s.performAll settings now ds).world.runs.stopped := by
  rw [← Moment.world_log (m := ⟨now, s.world, [], fun _ => none⟩) ds rfl]
  exact Moment.mem_stopped_after h

end Scene

end

/-! ## Marks and performers -/

namespace Phase

/-- Whether a phase is in a loop. -/
def inLoop : Phase → Bool
  | opening _ => false
  | looping _ | resting _ _ => true

end Phase

/-- Marks and performers are in step: who is in a loop of a run that was not stopped has marked its
sprite, if it is still the one that it began with, and every mark stands for a performer in a
loop. -/
structure Marked (w : World) (ps : List Performer) : Prop where
  dated : ∀ p ∈ ps, p.generation < w.cast.nextGeneration
  looping : ∀ p ∈ ps, p.phase.inLoop → ¬ p.isStopped w →
    ∀ m, w.cast.find? p.id = some m → m.generation = p.generation → m.figure.looping = true
  performer : ∀ id m, w.cast.find? id = some m → m.figure.looping = true →
    ∃ p ∈ ps, p.id = id ∧ p.generation = m.generation ∧ p.phase.inLoop

namespace Marked

variable {settings : Settings} {now : Nat} {w w' : World} {ps qs : List Performer}
  {p : Performer} {phase : Phase} {s : Scene}

theorem perm (h : Marked w ps) (hp : ps.Perm qs) : Marked w qs where
  dated p hmem := h.dated p (hp.mem_iff.2 hmem)
  looping p hmem := h.looping p (hp.mem_iff.2 hmem)
  performer id m hm hl := by
    obtain ⟨p, hmem, hrest⟩ := h.performer id m hm hl
    exact ⟨p, hp.mem_iff.1 hmem, hrest⟩

theorem keeps (h : Marked w ps) (hw : w.KeepsMarks w') : Marked w' ps := by
  refine ⟨fun p hp => Nat.lt_of_lt_of_le (h.dated p hp) hw.cast.next_le,
    fun p hp hin hs m' hm' hg => ?_, fun id m' hm' hl => ?_⟩
  · have hs : ¬ p.isStopped w := fun hw' =>
      hs (Performer.isStopped_iff.2 (hw.stopped _ (Performer.isStopped_iff.1 hw')))
    rcases hw.cast.member p.id m' hm' with ⟨m, hm, hg', hl⟩ | ⟨hle, -⟩
    · exact hl ▸ h.looping p hp hin hs m hm (hg'.trans hg)
    · have := h.dated p hp
      omega
  · rcases hw.cast.member id m' hm' with ⟨m, hm, hg, hl'⟩ | ⟨-, hl'⟩
    · obtain ⟨p, hp, hid, hgen, hin⟩ := h.performer id m hm (hl'.trans hl)
      exact ⟨p, hp, hid, hgen.trans hg, hin⟩
    · rw [hl] at hl'
      cases hl'

theorem leave (h : Marked w (p :: ps)) (hp : p.phase.inLoop = false) : Marked w ps := by
  refine ⟨fun q hq => h.dated q (List.mem_cons_of_mem p hq),
    fun q hq => h.looping q (List.mem_cons_of_mem p hq), fun id m hm hl => ?_⟩
  obtain ⟨q, hq, hid, hg, hin⟩ := h.performer id m hm hl
  rcases List.mem_cons.1 hq with rfl | hq
  · rw [hp] at hin
    cases hin
  · exact ⟨q, hq, hid, hg, hin⟩

theorem enter (h : Marked w (p :: ps)) (hphase : phase.inLoop = p.phase.inLoop) :
    Marked w (p.enter phase :: ps) := by
  refine ⟨?_, ?_, fun id m hm hl => ?_⟩
  · exact List.forall_mem_cons.2 (List.forall_mem_cons.1 h.dated)
  · refine List.forall_mem_cons.2 ⟨fun hin => ?_, (List.forall_mem_cons.1 h.looping).2⟩
    exact h.looping p List.mem_cons_self (hphase ▸ hin)
  · obtain ⟨q, hq, hid, hg, hin⟩ := h.performer id m hm hl
    rcases List.mem_cons.1 hq with rfl | hq
    · exact ⟨_, List.mem_cons_self, hid, hg, hphase ▸ hin⟩
    · exact ⟨q, List.mem_cons_of_mem _ hq, hid, hg, hin⟩

theorem next_le_setLooping (w : World) (id : SpriteId) (generation : Nat) (looping : Bool) :
    w.cast.nextGeneration ≤ (w.setLooping id generation looping).cast.nextGeneration := by
  unfold World.setLooping Cast.updateCurrent
  dsimp only
  split <;> exact Nat.le_refl _

/-- A performer that enters a loop marks its sprite. -/
theorem enterLoop (h : Marked w (p :: ps)) (hphase : phase.inLoop = true) :
    Marked (w.setLooping p.id p.generation true) (p.enter phase :: ps) := by
  have hdated : ∀ q ∈ p.enter phase :: ps, q.generation < w.cast.nextGeneration :=
    List.forall_mem_cons.2 (List.forall_mem_cons.1 h.dated)
  refine ⟨fun q hq => Nat.lt_of_lt_of_le (hdated q hq) (next_le_setLooping ..),
    fun q hq hin hs m' hm' hg => ?_, fun id m' hm' hl => ?_⟩
  · simp only [World.setLooping, Cast.find?_updateCurrent] at hm'
    obtain ⟨m, hm, rfl⟩ := Option.map_eq_some_iff.1 hm'
    by_cases hcur : m.id = p.id ∧ m.generation = p.generation
    · simp only [hcur, and_self, if_true]
    · simp only [hcur, if_false]
      rcases List.mem_cons.1 hq with rfl | hq
      · exact absurd ⟨Cast.id_of_find? hm, hg⟩ hcur
      · exact h.looping q (List.mem_cons_of_mem p hq) hin hs m hm hg
  · simp only [World.setLooping, Cast.find?_updateCurrent] at hm'
    obtain ⟨m, hm, rfl⟩ := Option.map_eq_some_iff.1 hm'
    by_cases hcur : m.id = p.id ∧ m.generation = p.generation
    · exact ⟨_, List.mem_cons_self, hcur.1.symm.trans (Cast.id_of_find? hm), hcur.2.symm, hphase⟩
    · simp only [hcur, if_false] at hl
      obtain ⟨q, hq, hid, hg, hin⟩ := h.performer id m hm hl
      rcases List.mem_cons.1 hq with rfl | hq
      · exact absurd ⟨(Cast.id_of_find? hm).trans hid.symm, hg.symm⟩ hcur
      · exact ⟨q, List.mem_cons_of_mem _ hq, hid, hg, hin⟩

/-- A performer that leaves a loop takes the mark of its sprite away, which nobody else needs. -/
theorem exit (h : Marked w (p :: ps))
    (ho : ∀ q ∈ ps, q.id = p.id → q.phase.inLoop → q.isStopped w) :
    Marked (w.setLooping p.id p.generation false) ps := by
  refine ⟨fun q hq => Nat.lt_of_lt_of_le (h.dated q (List.mem_cons_of_mem p hq))
    (next_le_setLooping ..), fun q hq hin hs m' hm' hg => ?_, fun id m' hm' hl => ?_⟩
  · simp only [World.setLooping, Cast.find?_updateCurrent] at hm'
    obtain ⟨m, hm, rfl⟩ := Option.map_eq_some_iff.1 hm'
    by_cases hcur : m.id = p.id ∧ m.generation = p.generation
    · exact absurd (ho q hq ((Cast.id_of_find? hm).symm.trans hcur.1) hin) hs
    · simp only [hcur, if_false]
      exact h.looping q (List.mem_cons_of_mem p hq) hin hs m hm hg
  · simp only [World.setLooping, Cast.find?_updateCurrent] at hm'
    obtain ⟨m, hm, rfl⟩ := Option.map_eq_some_iff.1 hm'
    by_cases hcur : m.id = p.id ∧ m.generation = p.generation
    · simp only [hcur, and_self, if_true] at hl
      cases hl
    · simp only [hcur, if_false] at hl
      obtain ⟨q, hq, hid, hg, hin⟩ := h.performer id m hm hl
      rcases List.mem_cons.1 hq with rfl | hq
      · exact absurd ⟨(Cast.id_of_find? hm).trans hid.symm, hg.symm⟩ hcur
      · exact ⟨q, hq, hid, hg, hin⟩

/-! ## Turns -/

theorem performAll (h : Marked s.world ps) (ds : List Deed)
    (hds : ∀ d ∈ ds, ∀ r looping, d ≠ .mark r looping) :
    Marked (s.performAll settings now ds).world ps :=
  h.keeps (Scene.keepsMarks_performAll settings now s ds hds)

theorem performAll_exit (h : Marked s.world (p :: ps))
    (ho : ∀ q ∈ ps, q.id = p.id → q.phase.inLoop → q.isStopped s.world) :
    Marked (s.performAll settings now p.exit).world ps := by
  have hw : (s.performAll settings now p.exit).world
      = s.world.setLooping p.id p.generation false := by
    simp [Performer.exit, Performer.role]
  rw [hw]
  exact h.exit ho

/-- Others that were stopped stay stopped. -/
theorem stopped_performAll {ds : List Deed}
    (ho : ∀ q ∈ ps, q.id = p.id → q.phase.inLoop → q.isStopped s.world) :
    ∀ q ∈ ps, q.id = p.id → q.phase.inLoop → q.isStopped (s.performAll settings now ds).world :=
  fun q hq hid hin => Performer.isStopped_iff.2
    (Scene.mem_stopped_performAll settings now (Performer.isStopped_iff.1 (ho q hq hid hin)) ds)

theorem step {ds : List Deed} {next : Option Performer} (h : Marked s.world (p :: ps))
    (ho : ∀ q ∈ ps, q.id = p.id → q.phase.inLoop → q.isStopped s.world)
    (hstep : Performer.StepCase settings now p s ds next) :
    Marked (s.performAll settings now ds).world (next.toList ++ ps) := by
  have hexecute : ∀ b, Marked (s.performAll settings now [.execute p.role b]).world (p :: ps) :=
    fun b => h.performAll _ fun d hd r looping => by
      obtain rfl := List.mem_singleton.1 hd
      exact nofun
  cases hstep with
  | done hp => exact (h.performAll [.leave p.role] (by simp)).leave (by rw [hp]; rfl)
  | enterLoop hp hb =>
    rw [Scene.performAll_cons, Scene.performAll_nil, Scene.perform_mark]
    exact h.enterLoop rfl
  | openingBlock hp hb hgo => exact (hexecute _).enter (by rw [hp]; rfl)
  | openingQuit hp hb hgo =>
    exact (h.performAll [.leave p.role] (by simp)).leave (by rw [hp]; rfl)
  | loopEnd hp hl => exact h.performAll_exit ho
  | loopBlock hp hl hgo hs => exact (hexecute _).enter (by rw [hp]; rfl)
  | loopStopped hp hl hgo hs => exact (hexecute _).performAll_exit (stopped_performAll ho)
  | loopQuit hp hl hgo => exact h.performAll_exit ho
  | wake hp hs =>
    exact (h.performAll [.drain p.role] (by simp)).enter (by rw [hp]; rfl)
  | wakeStopped hp hs => exact h.performAll_exit ho

/-- A turn keeps marks and performers in step, if the others of the sprite that are in loops were
stopped. -/
theorem turn (settings : Settings) (now : Nat) (h : Marked s.world (p :: ps))
    (ho : ∀ q ∈ ps, q.id = p.id → q.phase.inLoop → q.isStopped s.world) :
    Marked (p.turn settings now s).1.world ((p.turn settings now s).2.toList ++ ps) := by
  have hstep : ∀ (p : Performer) (s : Scene), Marked s.world (p :: ps) →
      (∀ q ∈ ps, q.id = p.id → q.phase.inLoop → q.isStopped s.world) →
      Marked (s.performAll settings now (p.stepDeeds settings now s)).world
        ((p.step settings now s).2.toList ++ ps) :=
    fun p s h ho => h.step ho (p.step_case settings now s)
  simp only [← Performer.step_scene] at hstep
  fun_induction Performer.turn settings now p s with
  | case1 p s after hnone =>
    have hs := hstep p s h ho
    rwa [hnone] at hs
  | case2 p s after p' hp' hrun ih =>
    have hs := hstep p s h ho
    rw [hp'] at hs
    have hid : p'.id = p.id := congrArg Role.id (Performer.role_of_step settings now hp')
    refine ih hs ?_
    rw [hid, p.step_scene]
    exact stopped_performAll ho
  | case3 p s after p' hp' hrun =>
    have hs := hstep p s h ho
    rwa [hp'] at hs

end Marked

end SpriteCanvas
