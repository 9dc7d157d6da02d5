import SpriteCanvas.Proofs.Lifetimes
import SpriteCanvas.Proofs.Marking

/-!
# Older runs come first

Performers of one sprite stand in the order of their runs, and older ones were stopped.  So when the
first one that can take a turn takes it, a performer of the live run goes on only after the others
of its sprite have ended, and who is in a loop of it is the last of its sprite (`Show.InOrder`).
Hence in a settled engine the marks and the run book tell who rests in a loop
(`Course.marks_tell`).
-/

namespace SpriteCanvas

/-! ## The order of performers -/

/-- One part stands before another: its sprite's name or, for one sprite, its run comes first. -/
def Role.Before (r r' : Role) : Prop := r.id < r'.id ∨ r.id = r'.id ∧ r.run < r'.run

theorem Role.Before.of_lt {r r' r'' : Role} (hlt : r.id < r'.id) (h : r'.Before r'') :
    r.Before r'' := by
  rcases h with h | ⟨h, -⟩
  · exact .inl (String.lt_trans hlt h)
  · exact .inl (h ▸ hlt)

namespace Show

/-- Performers in their order. -/
def Sorted (ps : List Performer) : Prop := ps.Pairwise fun p q => p.role.Before q.role

theorem sorted_join {p : Performer} : ∀ {ps : List Performer}, Sorted ps →
    (∀ q ∈ ps, q.id = p.id → q.run < p.run) → Sorted (join p ps)
  | [], _, _ => List.pairwise_singleton _ p
  | q :: rest, hs, hp => by
    obtain ⟨hq, hrest⟩ := List.pairwise_cons.1 hs
    unfold join
    split
    · rename_i hlt
      have hlt : p.role.id < q.role.id := hlt
      refine List.pairwise_cons.2 ⟨fun r hr => ?_, hs⟩
      rcases List.mem_cons.1 hr with rfl | hr
      · exact .inl hlt
      · exact Role.Before.of_lt hlt (hq r hr)
    · rename_i hge
      refine List.pairwise_cons.2 ⟨fun r hr => ?_, ?_⟩
      · rcases List.mem_cons.1 ((join_perm p rest).mem_iff.1 hr) with rfl | hr
        · by_cases hid : q.id = r.id
          · exact .inr ⟨hid, hp q List.mem_cons_self hid⟩
          · exact .inl (Std.lt_of_le_of_ne (String.not_lt.1 hge) hid)
        · exact hq r hr
      · exact sorted_join hrest fun r hr => hp r (List.mem_cons_of_mem q hr)

theorem sorted_foldl_join : ∀ {entering ps : List Performer}, Sorted ps →
    (∀ p ∈ entering, ∀ q ∈ ps, q.id = p.id → q.run < p.run) →
    entering.Pairwise (fun p q => p.id ≠ q.id) →
    Sorted (entering.foldl (fun ps p => join p ps) ps)
  | [], _, hs, _, _ => hs
  | p :: entering, ps, hs, hold, hids => by
    obtain ⟨hp, hids⟩ := List.pairwise_cons.1 hids
    rw [List.foldl_cons]
    refine sorted_foldl_join (sorted_join hs (hold p List.mem_cons_self)) ?_ hids
    intro p' hp' q hq hid
    rcases List.mem_cons.1 ((join_perm p ps).mem_iff.1 hq) with rfl | hq
    · exact absurd hid (hp p' hp')
    · exact hold p' (List.mem_cons_of_mem p hp') q hq hid

/-- Whoever takes a turn keeps its place, or leaves it. -/
theorem sorted_replace {before after : List Performer} {p : Performer} {next : Option Performer}
    (hs : Sorted (before.reverse ++ p :: after)) (hnext : ∀ q, next = some q → q.role = p.role) :
    Sorted (before.reverse ++ (next.toList ++ after)) := by
  have hsub : (next.toList.map Performer.role).Sublist [p.role] := by
    cases next with
    | none => exact List.nil_sublist _
    | some q =>
      rw [Option.toList_some, List.map_cons, hnext q rfl]
      exact .refl _
  have hs : ((before.reverse ++ p :: after).map Performer.role).Pairwise Role.Before :=
    List.pairwise_map.2 hs
  refine List.pairwise_map.1 (hs.sublist ?_)
  rw [List.map_append, List.map_append, List.map_append]
  exact (List.Sublist.refl _).append (hsub.append (.refl _))

end Show

/-- The live run is the latest one. -/
theorem Moment.Lawful.latest {settings : Settings} {log : List Entry} {run : RunId}
    (h : start.Lawful settings log)
    (hl : (start.after settings log).world.runs.live = some run) :
    (start.after settings log).world.runs.begun = run + 1 := by
  refine (h.induction (P := fun _ n => ∀ run, n.world.runs.live = some run →
    n.world.runs.begun = run + 1) nofun fun e _ _ n hn _ _ run hl => ?_) run hl
  rw [runs_perform] at hl ⊢
  rcases n.world.runs.perform_cases e.deed with h | ⟨-, h⟩ | ⟨-, -, h⟩ | ⟨r, -, h⟩ <;>
    rw [h] at hl ⊢
  · exact hn run hl
  · rw [RunBook.live_stop] at hl
    cases hl
  · exact congrArg (· + 1) (Option.some.inj hl)
  · refine hn run ?_
    unfold RunBook.finish at hl
    dsimp only at hl
    split at hl
    · cases hl
    · exact hl

namespace Performer

theorem isRunnable_of_isStopped {p : Performer} {now : Nat} {w : World} (h : p.isStopped w) :
    p.isRunnable now w := by
  unfold isRunnable
  split
  · rw [h, Bool.or_true]
  · rfl

end Performer

namespace Show

variable {settings : Settings} {now : Nat} {x x' : Show} {before after : List Performer}
  {p q : Performer}

/-- Performers stand in their order, marks and performers are in step, and who is in a loop of a run
that was not stopped is the only performer of its sprite. -/
structure InOrder (x : Show) : Prop where
  sorted : Sorted x.performers
  marked : Marked x.world x.performers
  alone : ∀ p ∈ x.performers, p.phase.inLoop → ¬ p.isStopped x.world →
    ∀ q ∈ x.performers, q.id = p.id → q = p

namespace InOrder

theorem keeps (h : x.InOrder) (hps : x'.performers = x.performers)
    (hw : x.world.KeepsMarks x'.world) : x'.InOrder := by
  refine ⟨hps ▸ h.sorted, hps ▸ h.marked.keeps hw, ?_⟩
  rw [hps]
  intro p hp hin hs
  refine h.alone p hp hin fun hstopped => hs ?_
  exact Performer.isStopped_iff.2 (hw.stopped _ (Performer.isStopped_iff.1 hstopped))

section Turn

variable (h : x.InOrder) (hserves : x.world.runs.Serves x.performers)
  (hlatest : ∀ run, x.world.runs.live = some run → x.world.runs.begun = run + 1)
  (hps : x.performers = before.reverse ++ p :: after)
  (hfirst : ∀ q ∈ before, ¬ q.isRunnable now x.world)

include h hserves hlatest hps hfirst

/-- When a performer of the live run takes its turn, all others of its sprite have ended. -/
theorem id_ne (hp : ¬ p.isStopped x.world) (hq : q ∈ before.reverse ++ after) : q.id ≠ p.id := by
  intro hid
  have hserved := hserves.1 q (mem_of_mem_around hps hq)
  have hlive : x.world.runs.live = some p.run :=
    (hserves.1 p (mem_of_around hps)).live (by simpa [Performer.isStopped] using hp)
  have hsorted := h.sorted
  rw [hps] at hsorted
  obtain ⟨-, hpafter, hbefore⟩ := List.pairwise_append.1 hsorted
  have hafter := (List.pairwise_cons.1 hpafter).1
  rcases List.mem_append.1 hq with hqb | hqa
  · -- An older one was stopped, and would have had its turn before.
    have hlt : q.run < p.run := by
      rcases hbefore q hqb p List.mem_cons_self with hlt | ⟨-, hlt⟩
      · exact absurd hid (Std.ne_of_lt hlt)
      · exact hlt
    have hs : q.run ∈ x.world.runs.stopped := by
      refine hserved.resolve_left fun hl => ?_
      exact Nat.ne_of_lt hlt (Option.some.inj (hl.symm.trans hlive))
    exact hfirst q (List.mem_reverse.1 hqb)
      (Performer.isRunnable_of_isStopped (Performer.isStopped_iff.2 hs))
  · -- A later run has not begun.
    have hlt : p.run < q.run := by
      rcases hafter q hqa with hlt | ⟨-, hlt⟩
      · exact absurd hid.symm (Std.ne_of_lt hlt)
      · exact hlt
    have hcounted := hserves.2 q.run hserved
    rw [hlatest p.run hlive] at hcounted
    exact Nat.lt_irrefl _ (Nat.lt_of_lt_of_le hlt (Nat.le_of_lt_succ hcounted))

/-- The others of a sprite that are in loops were stopped when a performer of it takes its turn. -/
theorem stopped :
    ∀ q ∈ before.reverse ++ after, q.id = p.id → q.phase.inLoop → q.isStopped x.world := by
  intro q hq hid hin
  by_contra hs
  by_cases hp : p.isStopped x.world
  · exact hs (h.alone q (mem_of_mem_around hps hq) hin hs p (mem_of_around hps) hid.symm ▸ hp)
  · exact h.id_ne hserves hlatest hps hfirst hp hq hid

theorem performerTurn : (performerTurn settings now before p after x.scene).InOrder := by
  have ho := h.stopped hserves hlatest hps hfirst
  have hrole : ∀ q, (p.turn settings now x.scene).2 = some q → q.role = p.role :=
    fun q => Performer.role_of_turn
  have hscene := performerTurn_scene settings now before p after x.scene
  have hstopped : ∀ run ∈ x.world.runs.stopped,
      run ∈ (Show.performerTurn settings now before p after x.scene).world.runs.stopped := by
    intro run hrun
    rw [world, hscene]
    exact Scene.mem_stopped_performAll settings now hrun _
  have hmarked := (h.marked.perm (hps ▸ List.perm_middle)).turn settings now ho
  have hkeeps : (p.turn settings now x.scene).1.world.KeepsMarks
      (Show.performerTurn settings now before p after x.scene).world := by
    rw [world, hscene, performerDeeds, Scene.performAll_append, ← Performer.turn_scene]
    refine Scene.keepsMarks_performAll settings now _ _ fun d hd r looping => ?_
    split at hd
    · rw [eq_of_mem_finishDeeds hd]
      rintro ⟨⟩
    · cases hd
  have hperformers := performers_performerTurn settings now before p after x.scene
  have hperm : (before.reverse ++ ((p.turn settings now x.scene).2.toList ++ after)).Perm
      ((p.turn settings now x.scene).2.toList ++ (before.reverse ++ after)) := by
    rw [← List.append_assoc, ← List.append_assoc]
    exact List.perm_append_comm.append_right after
  refine ⟨?_, ?_, ?_⟩
  · rw [hperformers]
    exact sorted_replace (hps ▸ h.sorted) hrole
  · rw [hperformers]
    exact (hmarked.perm hperm.symm).keeps hkeeps
  · intro a ha hin hs b hb hid
    have hs' : ¬ a.isStopped x.world := fun hstop =>
      hs (Performer.isStopped_iff.2 (hstopped _ (Performer.isStopped_iff.1 hstop)))
    rw [hperformers] at ha hb
    rcases List.mem_append.1 (hperm.mem_iff.1 ha) with ha | ha <;>
      rcases List.mem_append.1 (hperm.mem_iff.1 hb) with hb | hb
    · exact Option.some.inj ((Option.mem_toList.1 hb).symm.trans (Option.mem_toList.1 ha))
    · have hrole := hrole a (Option.mem_toList.1 ha)
      have hrun : a.run = p.run := congrArg Role.run hrole
      have hp : ¬ p.isStopped x.world := by
        rwa [Performer.isStopped, ← hrun]
      exact absurd (hid.trans (congrArg Role.id hrole)) (h.id_ne hserves hlatest hps hfirst hp hb)
    · have hrole := hrole b (Option.mem_toList.1 hb)
      exact absurd (ho a ha (hid.symm.trans (congrArg Role.id hrole)) hin) hs'
    · exact h.alone a (mem_of_mem_around hps ha) hin hs' b (mem_of_mem_around hps hb) hid

end Turn

theorem play? (h : x.InOrder) (hserves : x.world.runs.Serves x.performers)
    (hdated : ∀ id m, x.world.cast.find? id = some m → m.generation < x.world.cast.nextGeneration)
    {run : RunId} (hp : x.play? = some (run, x')) : x'.InOrder := by
  obtain ⟨runs, hb, hps⟩ := performers_of_play? hp
  have hrun := RunBook.begun_of_begin? hb
  have hscene := play?_scene .default 0 hp
  have hkeeps : x.world.KeepsMarks x'.world := by
    rw [world, world, hscene]
    refine Scene.keepsMarks_performAll .default 0 _ _ fun d hd r looping => ?_
    rcases List.mem_cons.1 hd with rfl | hd
    · rintro ⟨⟩
    · rw [eq_of_mem_finishDeeds hd]
      rintro ⟨⟩
  have hperm : (entering x.world run ++ x.performers).Perm x'.performers :=
    hps ▸ (foldl_join_perm (entering x.world run) x.performers).symm
  have hopening : ∀ p ∈ entering x.world run, p.phase.inLoop = false := by
    intro p hp
    obtain ⟨m, -, rfl⟩ := List.mem_map.1 hp
    rfl
  refine ⟨?_, ?_, ?_⟩
  · rw [hps]
    refine sorted_foldl_join h.sorted (fun p hp q hq _ => ?_) ?_
    · rw [run_of_mem_entering hp, hrun]
      exact hserves.2 q.run (hserves.1 q hq)
    · exact List.pairwise_map.2 (x.world.cast.sorted.imp fun hlt => Std.ne_of_lt hlt)
  · refine Marked.keeps (Marked.perm ⟨?_, ?_, ?_⟩ hperm) hkeeps
    · refine List.forall_mem_append.2 ⟨fun p hp => ?_, h.marked.dated⟩
      obtain ⟨m, hm, rfl⟩ := List.mem_map.1 hp
      exact hdated m.id m (Cast.find?_of_mem hm)
    · refine List.forall_mem_append.2 ⟨fun p hp hin => ?_, h.marked.looping⟩
      rw [hopening p hp] at hin
      cases hin
    · intro id m hm hl
      obtain ⟨p, hp, hrest⟩ := h.marked.performer id m hm hl
      exact ⟨p, List.mem_append_right _ hp, hrest⟩
  · intro p hp hin hs
    rcases List.mem_append.1 (hperm.mem_iff.2 hp) with hp | hp
    · rw [hopening p hp] at hin
      cases hin
    · refine absurd ?_ hs
      refine Performer.isStopped_iff.2 (hkeeps.stopped _ ((hserves.1 p hp).resolve_left ?_))
      rw [RunBook.live_of_begin? hb]
      rintro ⟨⟩

end InOrder

/-! ## What marks and runs tell -/

/-- The marks and the run book tell who rests in a loop: a sprite is marked exactly while a
performer of the live run, with the sprite's generation, rests; a run is live exactly while somebody
rests; and whoever rests is in the live run. -/
structure Telling (x : Show) : Prop where
  looping : ∀ id m, x.world.cast.find? id = some m → (m.figure.looping = true ↔
    ∃ p ∈ x.performers, x.world.runs.live = some p.run ∧ p.id = id
      ∧ p.generation = m.generation ∧ ∃ l wake, p.phase = .resting l wake)
  running : x.world.runs.isRunning = true ↔
    ∃ p ∈ x.performers, ∃ l wake, p.phase = .resting l wake
  live : ∀ p ∈ x.performers, (∃ l wake, p.phase = .resting l wake) →
    x.world.runs.live = some p.run
  idle : x.world.runs.isRunning = false → ∀ id m, x.world.cast.find? id = some m →
    m.figure.looping = false

/-- Marks that are in step with the performers of a settled show tell who rests. -/
theorem InOrder.telling (h : x.InOrder) (hserves : x.world.runs.Serves x.performers)
    (hmanned : ∀ run, x.world.runs.live = some run → ∃ p ∈ x.performers, p.run = run)
    (hs : x.turn? settings now = none) : x.Telling := by
  have hrests : ∀ p ∈ x.performers, ∃ l wake, p.phase = .resting l wake := fun p hp =>
    let ⟨l, wake, hphase, _⟩ := rests_of_not_runnable (not_runnable_of_turn? hs hp)
    ⟨l, wake, hphase⟩
  have hgoes : ∀ p ∈ x.performers, ¬ p.isStopped x.world := fun p hp =>
    let ⟨_, _, _, _, hgoes⟩ := rests_of_not_runnable (not_runnable_of_turn? hs hp)
    hgoes
  have hlive : ∀ p ∈ x.performers, x.world.runs.live = some p.run := fun p hp =>
    (hserves.1 p hp).live (by simpa [Performer.isStopped] using hgoes p hp)
  have hlooping : ∀ id m, x.world.cast.find? id = some m → m.figure.looping = true →
      ∃ p ∈ x.performers, p.id = id ∧ p.generation = m.generation := by
    intro id m hm hl
    obtain ⟨p, hp, hid, hg, -⟩ := h.marked.performer id m hm hl
    exact ⟨p, hp, hid, hg⟩
  refine ⟨fun id m hm => ⟨fun hl => ?_, ?_⟩, ⟨fun hr => ?_, ?_⟩, fun p hp _ => hlive p hp, ?_⟩
  · obtain ⟨p, hp, hid, hg⟩ := hlooping id m hm hl
    exact ⟨p, hp, hlive p hp, hid, hg, hrests p hp⟩
  · rintro ⟨p, hp, -, rfl, hg, l, wake, hphase⟩
    exact h.marked.looping p hp (by rw [hphase]; rfl) (hgoes p hp) m hm hg.symm
  · obtain ⟨run, hl⟩ := Option.isSome_iff_exists.1 hr
    obtain ⟨p, hp, -⟩ := hmanned run hl
    exact ⟨p, hp, hrests p hp⟩
  · rintro ⟨p, hp, -⟩
    exact Option.isSome_iff_exists.2 ⟨p.run, hlive p hp⟩
  · intro hr id m hm
    refine Bool.eq_false_iff.2 fun hl => ?_
    obtain ⟨p, hp, -⟩ := hlooping id m hm hl
    rw [RunBook.isRunning, hlive p hp] at hr
    cases hr

end Show

namespace Course

variable {settings : Settings} {x : Course} {m : Move}

theorem inOrder_move (hf : Show.Follows settings x.clock .start x.chronicle x.engine)
    (hturn : x.InTurn m) (h : x.engine.InOrder) : (x.next settings m).InOrder := by
  obtain ⟨hlaw, hagree⟩ := hf
  have hlatest := @hlaw.latest
  have hdated := hlaw.dated.member
  rw [hagree.world] at hlatest hdated
  cases m with
  | call c =>
    refine h.keeps rfl (Scene.keepsMarks_performAll settings x.clock x.engine.scene [.answer c] ?_)
    simp
  | play =>
    simp only [next]
    split
    · rename_i hp
      exact h.play? hagree.serves hdated hp
    · exact h
  | alarms =>
    refine h.keeps rfl ?_
    rw [Show.world, Show.world, next, Show.alarmTurn_scene]
    refine Scene.keepsMarks_performAll settings x.clock _ _ fun d hd r looping => ?_
    rcases List.mem_cons.1 hd with rfl | hd
    · rintro ⟨⟩
    · obtain ⟨a, -, rfl⟩ := List.mem_map.1 hd
      rintro ⟨⟩
  | performer place =>
    simp only [next]
    split
    · rename_i hp
      exact h.performerTurn hagree.serves hlatest (performers_around hp)
        fun q hq => hturn q (List.mem_reverse.1 hq)
    · exact h
  | pass duration => exact h

/-- Whenever turns go to the first performer that can take one, and whatever else happens in
between, the marks and the run book of a settled engine tell who rests in a loop.  So they do after
every step of every session. -/
theorem marks_tell (settings : Settings) (listening : Listening) (reactions : List Reaction) :
    (∀ ms, (start listening reactions).Throughout settings InTurn ms →
      ((start listening reactions).run settings ms).engine.turn? settings
        ((start listening reactions).run settings ms).clock = none →
      ((start listening reactions).run settings ms).engine.Telling)
    ∧ ∀ steps, ((Session.new settings listening reactions).stepAll steps).engine.Telling := by
  have hcourse : ∀ ms, (start listening reactions).Throughout settings InTurn ms →
      ((start listening reactions).run settings ms).engine.turn? settings
        ((start listening reactions).run settings ms).clock = none →
      ((start listening reactions).run settings ms).engine.Telling := by
    intro ms hms hs
    have hstart : Marked World.initial [] := ⟨nofun, nofun, nofun⟩
    have horder := (hms.induction settings (P := fun y =>
      Show.Follows settings y.clock .start y.chronicle y.engine ∧ y.engine.InOrder)
      ⟨⟨trivial, agrees_start listening reactions⟩, ⟨.nil, hstart, nofun⟩⟩
      fun y m hturn h => ⟨follows_next h.1 m, inOrder_move h.1 hturn h.2⟩).2
    obtain ⟨hlaw, hagree⟩ := follows_run settings listening reactions ms
    refine horder.telling hagree.serves (fun run hl => ?_) hs
    have hlatest := @hlaw.latest _ _ run
    have hended := @hlaw.not_live_of_finish _ _ run
    rw [hagree.world] at hlatest hended
    refine (manned_run settings listening reactions ms run ?_).resolve_right ?_
    · have := hlatest hl
      omega
    · rintro ⟨t, -, hf⟩
      exact hended t hf hl
  refine ⟨hcourse, fun steps => ?_⟩
  obtain ⟨ms, hms, hclock, hengine⟩ := Session.exists_moves settings listening reactions steps
  have hs := Session.turn?_stepAll settings listening reactions steps
  rw [(Session.reaches_stepAll (Session.new settings listening reactions) steps).1] at hs
  rw [← hclock, ← hengine] at hs
  rw [← hengine]
  exact hcourse ms (hms.mono fun _ _ h => h.2) hs

end Course

end SpriteCanvas
