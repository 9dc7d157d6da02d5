import SpriteCanvas.Proofs.Patience
import SpriteCanvas.Proofs.Unrolling

/-!
# How runs end

After each move every run that has begun has a performer left or has ended (`Course.manned_run`).
The performers of a stopped run can take a turn at any time, and what is recorded at its end is that
it was stopped.  So a run that is stopped while it is live ends when the engine settles
(`Course.ended_of_stop`), and in a patient course before time passes (`Course.ended_at_stop`).
-/

namespace SpriteCanvas

namespace Scene

variable (settings : Settings) (now : Nat)

theorem mem_log {d : Deed} :
    ∀ {ds : List Deed} (s : Scene), d ∈ ds → ⟨now, d⟩ ∈ s.log settings now ds
  | d' :: ds, s, hd => by
    rw [log]
    rcases List.mem_cons.1 hd with rfl | hd
    · exact List.mem_append_left _ List.mem_cons_self
    · exact List.mem_append_right _ (mem_log _ hd)

theorem of_mem_runLog {e : Entry} {errands : List Errand} {s : Scene}
    (he : e ∈ s.runLog settings now errands) : e.time = now ∧ e.deed.role? = none := by
  fun_induction runLog settings now errands s with
  | case1 s => cases he
  | case2 n errands s ih =>
    rcases List.mem_cons.1 he with rfl | he
    · exact ⟨rfl, rfl⟩
    · exact ih he
  | case3 c errands s reply =>
    rename_i ih
    rcases List.mem_cons.1 he with rfl | he
    · exact ⟨rfl, rfl⟩
    · exact ih he
  | case4 a errands s ih => exact ih he

/-- What is written down while deeds are done happens at that time, and performers do no more than
these deeds. -/
theorem of_mem_log {e : Entry} : ∀ {ds : List Deed} {s : Scene}, e ∈ s.log settings now ds →
    e.time = now ∧ (e.deed ∈ ds ∨ e.deed.role? = none)
  | d :: ds, s, he => by
    rw [log, List.cons_append] at he
    rcases List.mem_cons.1 he with rfl | he
    · exact ⟨rfl, .inl List.mem_cons_self⟩
    · rcases List.mem_append.1 he with he | he
      · exact (of_mem_runLog settings now he).imp_right .inr
      · exact (of_mem_log he).imp_right (Or.imp_left (List.mem_cons_of_mem d))

end Scene

/-! ## Performers left -/

namespace Show

variable (settings : Settings) (now : Nat)

theorem exists_or_finish (run : RunId) (ps : List Performer) :
    (∃ p ∈ ps, p.run = run) ∨ Deed.finish run ∈ finishDeeds run ps := by
  unfold finishDeeds
  split
  · rename_i h
    obtain ⟨p, hp, hr⟩ := List.any_eq_true.1 h
    exact .inl ⟨p, hp, by simpa using hr⟩
  · exact .inr List.mem_cons_self

theorem begun_finishIfDone (run : RunId) (s : Show) :
    (finishIfDone run s).world.runs.begun = s.world.runs.begun := by
  unfold finishIfDone
  split <;> rfl

theorem begun_performerTurn (before : List Performer) (p : Performer) (after : List Performer)
    (scene : Scene) :
    (performerTurn settings now before p after scene).world.runs.begun
      = scene.world.runs.begun := by
  have hk := (Performer.keeps_turn settings now p scene).1
  unfold performerTurn
  split
  · rename_i h
    rwa [h] at hk
  · rename_i h
    rw [begun_finishIfDone]
    rwa [h] at hk

theorem begun_alarmTurn (s : Show) :
    (s.alarmTurn settings now).world.runs.begun = s.world.runs.begun := by
  rw [world, alarmTurn_scene]
  refine (Scene.keeps_performAll settings now _ (fun d hd b => ?_) s.scene).1
  rcases List.mem_cons.1 hd with rfl | hd
  · exact .refl b
  · obtain ⟨a, -, rfl⟩ := List.mem_map.1 hd
    exact .refl b

theorem begun_play? {run : RunId} {s s' : Show} (h : s.play? = some (run, s')) :
    s'.world.runs.begun = s.world.runs.begun + 1 := by
  unfold play? at h
  split at h
  · cases h
  · rename_i runs hb
    cases h
    rw [RunBook.begin?, RunBook.live_of_begin? hb] at hb
    cases hb
    exact begun_finishIfDone ..

/-- Whoever goes on after a turn stays in its run, and whoever does not lets it end. -/
theorem manned_performerTurn (before : List Performer) (p : Performer) (after : List Performer)
    (scene : Scene) {q : Performer} (hq : q ∈ before.reverse ++ p :: after) :
    (∃ p' ∈ (performerTurn settings now before p after scene).performers, p'.run = q.run)
      ∨ .finish q.run ∈ performerDeeds settings now p (before.reverse ++ after) scene := by
  have hothers : q = p ∨ q ∈ before.reverse ++ after :=
    List.mem_cons.1 (List.perm_middle.mem_iff.1 hq)
  unfold performerTurn performerDeeds
  split
  · rename_i scene' p' h
    have hrun : p'.run = p.run := congrArg Role.run (Performer.role_of_turn (by rw [h]))
    rcases hothers with rfl | hq
    · exact .inl ⟨p', by simp, hrun⟩
    · exact .inl ⟨q, List.perm_middle.mem_iff.2 (List.mem_cons_of_mem p' hq), rfl⟩
  · rename_i scene' h
    rw [performers_finishIfDone]
    rcases hothers with rfl | hq
    · refine (exists_or_finish q.run (before.reverse ++ after)).imp_right fun hf => ?_
      rw [h]
      exact List.mem_append_right _ hf
    · exact .inl ⟨q, hq, rfl⟩

end Show

namespace Course

/-- Every run that has begun has a performer left, or has ended. -/
def Manned (x : Course) : Prop :=
  ∀ run < x.engine.world.runs.begun, (∃ p ∈ x.engine.performers, p.run = run)
    ∨ ∃ t ≤ x.clock, ⟨t, .finish run⟩ ∈ x.chronicle

variable {settings : Settings} {x : Course}

theorem Manned.of_performers (h : x.Manned) {m : Move}
    (hbegun : (x.next settings m).world.runs.begun = x.engine.world.runs.begun)
    (hps : ∀ p ∈ x.engine.performers, (∃ q ∈ (x.next settings m).performers, q.run = p.run)
      ∨ .finish p.run ∈ x.deeds settings m) : (x.move settings m).Manned := by
  intro run hrun
  have hclock := clock_le_move settings x m
  have hrun : run < x.engine.world.runs.begun := by
    rw [← hbegun]
    exact hrun
  rcases h run hrun with ⟨p, hp, rfl⟩ | ⟨t, ht, hf⟩
  · refine (hps p hp).imp_right fun hf => ⟨x.clock, hclock, ?_⟩
    exact List.mem_append_right _ (Scene.mem_log settings x.clock _ hf)
  · exact .inr ⟨t, Nat.le_trans ht hclock, List.mem_append_left _ hf⟩

theorem Manned.play (h : x.Manned) : (x.move settings .play).Manned := by
  rcases hp : x.engine.play? with _ | ⟨run, s⟩
  · refine h.of_performers ?_ fun p hmem => .inl ⟨p, ?_, rfl⟩
    · simp only [next, hp]
    · simpa only [next, hp] using hmem
  · obtain ⟨runs, hb, hperm⟩ := Show.perm_of_play? hp
    have hbegun := Show.begun_play? hp
    have hengine : (x.move settings .play).engine = s := by simp only [move, next, hp]
    have hdeeds : x.deeds settings .play = .begin run :: Show.finishDeeds run s.performers := by
      simp only [deeds, hp]
    intro run' hlt
    rw [hengine] at hlt ⊢
    rcases Nat.lt_succ_iff_lt_or_eq.1 (hbegun ▸ hlt) with hlt | heq
    · rcases h run' hlt with ⟨p, hmem, rfl⟩ | ⟨t, ht, hf⟩
      · exact .inl ⟨p, hperm.mem_iff.1 (List.mem_append_right _ hmem), rfl⟩
      · exact .inr ⟨t, ht, List.mem_append_left _ hf⟩
    · have hrun : run' = run := heq.trans (RunBook.begun_of_begin? hb).symm
      subst hrun
      refine (Show.exists_or_finish run' s.performers).imp_right fun hf =>
        ⟨x.clock, Nat.le_refl _, List.mem_append_right _ ?_⟩
      rw [hdeeds]
      exact Scene.mem_log settings x.clock _ (List.mem_cons_of_mem _ hf)

theorem Manned.move (h : x.Manned) (m : Move) : (x.move settings m).Manned := by
  cases m with
  | call c =>
    refine h.of_performers ?_ fun p hp => .inl ⟨p, hp, rfl⟩
    exact (Scene.keeps_perform settings x.clock x.engine.scene
      (RunBook.keeps_perform_answer _ c)).1
  | play => exact h.play
  | alarms =>
    exact h.of_performers (Show.begun_alarmTurn settings x.clock x.engine)
      fun p hp => .inl ⟨p, hp, rfl⟩
  | performer place =>
    rcases hp : x.runnable? place with _ | p
    · refine h.of_performers ?_ fun q hq => .inl ⟨q, ?_, rfl⟩
      · simp only [next, hp]
      · simpa only [next, hp] using hq
    · refine h.of_performers ?_ fun q hq => ?_
      · simp only [next, hp]
        exact Show.begun_performerTurn settings x.clock _ _ _ _
      · simp only [next, deeds, hp]
        refine Show.manned_performerTurn settings x.clock _ _ _ _ ?_
        rwa [← performers_around hp]
  | pass duration => exact h.of_performers rfl fun p hp => .inl ⟨p, hp, rfl⟩

theorem manned_run (settings : Settings) (listening : Listening) (reactions : List Reaction)
    (ms : List Move) : ((start listening reactions).run settings ms).Manned :=
  run_induction settings (start listening reactions) (P := Manned)
    (fun _ h => absurd h (Nat.not_lt_zero _)) (fun _ m h => h.move m) ms

end Course

/-! ## Runs that were stopped -/

namespace RunBook

variable {b : RunBook} {run : RunId} {d : Deed}

/-- A run is live only if it was live before or begins. -/
theorem live_of_perform (h : (b.perform d).live = some run) :
    b.live = some run ∨ (∃ r, d = .begin r) ∧ run = b.begun := by
  rcases b.perform_cases d with hd | ⟨-, hd⟩ | ⟨hbegin, -, hd⟩ | ⟨r, -, hd⟩ <;> rw [hd] at h
  · exact .inl h
  · rw [live_stop] at h
    cases h
  · exact .inr ⟨hbegin, (Option.some.inj h).symm⟩
  · simp only [finish] at h
    split at h
    · cases h
    · exact .inl h

theorem mem_stopped_perform (h : run ∈ b.stopped) (d : Deed) : run ∈ (b.perform d).stopped := by
  by_cases hd : d = .answer .stop
  · subst hd
    exact b.mem_stopped_stop.2 (.inl h)
  · rwa [stopped_perform hd]

theorem ended_perform (h : ∀ r, d ≠ .finish r) : (b.perform d).ended = b.ended := by
  rcases b.perform_cases d with hd | ⟨-, hd⟩ | ⟨-, -, hd⟩ | ⟨r, hr, -⟩
  · rw [hd]
  · rw [hd, ended_stop]
  · rw [hd]
  · exact absurd hr (h r)

/-- Only its end changes what is recorded of a run. -/
theorem outcome?_perform_of_ne (h : d ≠ .finish run) :
    (b.perform d).outcome? run = b.outcome? run := by
  by_cases hd : ∃ r, d = .finish r
  · obtain ⟨r, rfl⟩ := hd
    have hr : run ≠ r := fun hr => h (hr ▸ rfl)
    exact (b.outcome?_finish r run).trans (if_neg hr)
  · rw [outcome?, ended_perform fun r hr => hd ⟨r, hr⟩]
    rfl

/-- A run that has ended has an outcome. -/
theorem isSome_outcome?_perform (h : d = .finish run ∨ (b.outcome? run).isSome) :
    ((b.perform d).outcome? run).isSome := by
  by_cases hd : d = .finish run
  · subst hd
    simp [perform, outcome?_finish]
  · rw [outcome?_perform_of_ne hd]
    exact h.resolve_left hd

/-- What is recorded at the end of a stopped run, and stays so if it should end again. -/
theorem outcome?_perform (hs : run ∈ b.stopped)
    (h : d = .finish run ∨ b.outcome? run = some .stopped) :
    (b.perform d).outcome? run = some .stopped := by
  by_cases hd : d = .finish run
  · subst hd
    simp [perform, outcome?_finish, outcomeOf, isStopped, hs]
  · rw [outcome?_perform_of_ne hd]
    exact h.resolve_left hd

/-- What is recorded at the end of a run that was not stopped, and stays so. -/
theorem outcome?_perform_of_unstopped (hs : run ∉ b.stopped)
    (h : d = .finish run ∨ b.outcome? run = some .completed) :
    (b.perform d).outcome? run = some .completed := by
  by_cases hd : d = .finish run
  · subst hd
    simp [perform, outcome?_finish, outcomeOf, isStopped, hs]
  · rw [outcome?_perform_of_ne hd]
    exact h.resolve_left hd

end RunBook

namespace Moment

variable {settings : Settings} {n : Moment} {log : List Entry} {run : RunId}

theorem begun_le_after (n : Moment) (log : List Entry) :
    n.world.runs.begun ≤ (n.after settings log).world.runs.begun := by
  induction log generalizing n with
  | nil => exact Nat.le_refl _
  | cons e log ih =>
    refine Nat.le_trans ?_ (ih (n.perform settings e))
    rw [runs_perform]
    exact RunBook.begun_le_perform _ _

/-- What the end of a run brings about, and everything keeps, holds after the end. -/
theorem after_of_finish {I P : RunBook → Prop} (hn : I n.world.runs)
    (hI : ∀ e ∈ log, ∀ b, I b → I (b.perform e.deed))
    (hP : ∀ b d, I b → d = .finish run ∨ P b → P (b.perform d))
    (h : (∃ t, ⟨t, .finish run⟩ ∈ log) ∨ P n.world.runs) : P (n.after settings log).world.runs := by
  induction log generalizing n with
  | nil => exact h.resolve_left nofun
  | cons e log ih =>
    refine ih (n := n.perform settings e) ?_ (fun e' he' => hI e' (List.mem_cons_of_mem e he')) ?_
    · rw [runs_perform]
      exact hI e List.mem_cons_self _ hn
    · rw [runs_perform]
      rcases h with ⟨t, ht⟩ | h
      · rcases List.mem_cons.1 ht with rfl | ht
        · exact .inr (hP _ _ hn (.inl rfl))
        · exact .inl ⟨t, ht⟩
      · exact .inr (hP _ _ hn (.inr h))

theorem outcome?_after (hs : run ∈ n.world.runs.stopped)
    (h : (∃ t, ⟨t, .finish run⟩ ∈ log) ∨ n.world.runs.outcome? run = some .stopped) :
    (n.after settings log).world.runs.outcome? run = some .stopped :=
  after_of_finish (I := fun b => run ∈ b.stopped) (P := fun b => b.outcome? run = some .stopped) hs
    (fun e _ _ hb => RunBook.mem_stopped_perform hb e.deed)
    (fun _ _ hb => RunBook.outcome?_perform hb) h

/-- A run has an outcome once it has ended. -/
theorem isSome_outcome?_after
    (h : (∃ t, ⟨t, .finish run⟩ ∈ log) ∨ (n.world.runs.outcome? run).isSome) :
    ((n.after settings log).world.runs.outcome? run).isSome :=
  after_of_finish (I := fun _ => True) (P := fun b => (b.outcome? run).isSome) trivial
    (fun _ _ _ _ => trivial) (fun _ _ _ => RunBook.isSome_outcome?_perform) h

theorem mem_stopped_after (hs : run ∈ n.world.runs.stopped) :
    run ∈ (n.after settings log).world.runs.stopped := by
  induction log generalizing n with
  | nil => exact hs
  | cons e log ih =>
    refine ih ?_
    rw [runs_perform]
    exact RunBook.mem_stopped_perform hs e.deed

/-- A run that has ended is never live again. -/
theorem Lawful.not_live_of_finish {t : Nat} (h : start.Lawful settings log)
    (hf : ⟨t, .finish run⟩ ∈ log) : (start.after settings log).world.runs.live ≠ some run := by
  refine (h.induction (P := fun before n => ∀ run t, ⟨t, .finish run⟩ ∈ before →
    run < n.world.runs.begun ∧ n.world.runs.live ≠ some run) (fun _ _ h => by cases h)
    (fun e _ before n hn _ ha => ?_) run t hf).2
  intro run t hf
  rw [runs_perform]
  rcases List.mem_append.1 hf with hf | hf
  · obtain ⟨hlt, hne⟩ := hn run t hf
    refine ⟨Nat.lt_of_lt_of_le hlt (RunBook.begun_le_perform _ _), fun hl => ?_⟩
    rcases RunBook.live_of_perform hl with hl | ⟨-, rfl⟩
    · exact hne hl
    · exact Nat.lt_irrefl _ hlt
  · obtain rfl := List.mem_singleton.1 hf
    refine ⟨ha.1, fun hl => ?_⟩
    simp only [RunBook.perform, RunBook.finish] at hl
    split at hl
    · cases hl
    · rename_i hne
      exact hne hl

end Moment

theorem Performer.isStopped_iff {p : Performer} {w : World} :
    p.isStopped w = true ↔ p.run ∈ w.runs.stopped := List.contains_iff_mem

namespace Show

variable {settings : Settings} {now : Nat} {s : Show}

/-- While nobody can take a turn, no performer of a stopped run is left. -/
theorem ne_of_turn?_none {run : RunId} (h : s.turn? settings now = none)
    (hs : run ∈ s.world.runs.stopped) {p : Performer} (hp : p ∈ s.performers) : p.run ≠ run := by
  rintro rfl
  obtain ⟨l, wake, -, -, hgoes⟩ := rests_of_not_runnable (not_runnable_of_turn? h hp)
  exact hgoes (Performer.isStopped_iff.2 hs)

end Show

namespace Course

variable {settings : Settings} {listening : Listening} {reactions : List Reaction}
  {ms : List Move} {x : Course} {pre post : List Entry} {t : Nat} {run : RunId}

/-- A run that is live at a stop has ended once nobody can take a turn, and was stopped. -/
theorem ended_of_stop (hx : (start listening reactions).run settings ms = x)
    (hstop : x.chronicle = pre ++ ⟨t, .answer .stop⟩ :: post)
    (hlive : (Moment.start.after settings pre).world.runs.live = some run)
    (hsettled : x.engine.turn? settings x.clock = none) :
    (∃ t', t ≤ t' ∧ t' ≤ x.clock ∧ ⟨t', .finish run⟩ ∈ post)
      ∧ x.engine.world.runs.outcome? run = some .stopped := by
  have hlaw := lawful_run settings listening reactions ms
  have hagree := agrees_run settings listening reactions ms
  have hmanned := manned_run settings listening reactions ms
  rw [hx] at hlaw hagree hmanned
  rw [hstop, Moment.lawful_append] at hlaw
  obtain ⟨hpre, -, -, hpost⟩ := hlaw
  have hafter : Moment.start.after settings x.chronicle
      = ((Moment.start.after settings pre).perform settings ⟨t, .answer .stop⟩).after
        settings post := by
    rw [hstop, Moment.after_append, Moment.after_cons]
  have hs : run ∈ ((Moment.start.after settings pre).perform settings
      ⟨t, .answer .stop⟩).world.runs.stopped := by
    rw [Moment.runs_perform]
    exact (RunBook.mem_stopped_stop _).2 (.inr hlive)
  have hs' : run ∈ x.engine.world.runs.stopped := by
    rw [← hagree.world, hafter]
    exact Moment.mem_stopped_after hs
  have hbegun : run < x.engine.world.runs.begun := by
    refine Nat.lt_of_lt_of_le (hpre.counted run (.inl hlive)) ?_
    rw [← hagree.world, hstop, Moment.after_append]
    exact Moment.begun_le_after _ _
  obtain ⟨t', ht', hf⟩ := (hmanned run hbegun).resolve_left fun ⟨p, hp, hr⟩ =>
    Show.ne_of_turn?_none hsettled hs' hp hr
  have hf : ⟨t', .finish run⟩ ∈ post := by
    rw [hstop] at hf
    rcases List.mem_append.1 hf with hf | hf
    · exact absurd hlive (hpre.not_live_of_finish hf)
    · exact (List.mem_cons.1 hf).resolve_left nofun
  refine ⟨⟨t', (hpost.time_mem hf).1, ht', hf⟩, ?_⟩
  rw [← hagree.world, hafter]
  exact Moment.outcome?_after hs (.inl ⟨t', hf⟩)

/-- Settling ends a run that was live at a stop. -/
theorem outcome?_settle_of_stop (hx : (start listening reactions).run settings ms = x)
    (hstop : x.chronicle = pre ++ ⟨t, .answer .stop⟩ :: post)
    (hlive : (Moment.start.after settings pre).world.runs.live = some run) :
    (x.engine.settle settings x.clock).world.runs.outcome? run = some .stopped := by
  have hleads : x.Leads settings (Own settings) x.clock (x.engine.settle settings x.clock) :=
    leads_settle rfl rfl
  obtain ⟨ns, -, hclock, hengine⟩ := hleads
  obtain ⟨log, hlog⟩ := chronicle_run settings x ns
  have hrun : (start listening reactions).run settings (ms ++ ns) = x.run settings ns := by
    rw [run_append, hx]
  rw [hstop, List.append_assoc, List.cons_append] at hlog
  refine hengine ▸ (ended_of_stop hrun hlog hlive ?_).2
  rw [hclock, hengine]
  exact Show.turn?_settle settings x.clock x.engine

/-- What is in the chronicle after a move happened in it, or was there before. -/
theorem mem_or_split_of_move {m : Move} {e : Entry}
    (h : (x.move settings m).chronicle = pre ++ e :: post) :
    e.time = x.clock
      ∨ ∃ mid, x.chronicle = pre ++ e :: mid
        ∧ post = mid ++ x.engine.scene.log settings x.clock (x.deeds settings m) := by
  have htime : e ∈ x.engine.scene.log settings x.clock (x.deeds settings m) → e.time = x.clock :=
    fun he => (Scene.of_mem_log settings x.clock he).1
  rcases List.append_eq_append_iff.1 h with ⟨as, -, hlog⟩ | ⟨_ | ⟨e', mid⟩, hold, hlog⟩
  · exact .inl (htime (hlog ▸ List.mem_append_right as List.mem_cons_self))
  · rw [List.nil_append] at hlog
    exact .inl (htime (hlog ▸ List.mem_cons_self))
  · obtain ⟨rfl, hpost⟩ := List.cons.inj hlog
    exact .inr ⟨mid, hold, hpost⟩

/-- In a patient course a run that is live at a stop ends at the time of the stop. -/
theorem ended_at_stop (hpatient : (start listening reactions).Patient settings ms)
    (hx : (start listening reactions).run settings ms = x)
    (hstop : x.chronicle = pre ++ ⟨t, .answer .stop⟩ :: post)
    (hlive : (Moment.start.after settings pre).world.runs.live = some run)
    (h : x.engine.turn? settings x.clock = none ∨ t < x.clock) : ⟨t, .finish run⟩ ∈ post := by
  induction ms using List.reverseRecOn generalizing x post with
  | nil =>
    subst hx
    simp [Course.run, start] at hstop
  | append_singleton ms m ih =>
    obtain ⟨hms, hm, -⟩ := (patient_append settings _ ms [m]).1 hpatient
    have hrun : ((start listening reactions).run settings ms).move settings m = x := by
      rw [← hx, run_append]
      rfl
    generalize hy : (start listening reactions).run settings ms = y at hm hrun
    have hsplit := mem_or_split_of_move ((congrArg Course.chronicle hrun).trans hstop)
    by_cases hlt : t < y.clock
    · obtain ⟨mid, hold, rfl⟩ := hsplit.resolve_left (Nat.ne_of_lt hlt)
      exact List.mem_append_left _ (ih hms hy hold (.inr hlt))
    · by_cases hpass : ∃ duration, m = .pass duration
      · obtain ⟨duration, rfl⟩ := hpass
        refine ih hms hy ?_ (.inl (hm duration rfl))
        rw [← hstop, ← hrun]
        exact (List.append_nil _).symm
      · have hclock : x.clock = y.clock := by
          rw [← hrun]
          cases m with
          | pass duration => exact absurd ⟨duration, rfl⟩ hpass
          | _ => rfl
        rw [← hclock] at hlt
        obtain ⟨⟨t', hle, hge, hf⟩, -⟩ := ended_of_stop hx hstop hlive (h.resolve_right hlt)
        obtain rfl : t = t' := by omega
        exact hf

end Course

end SpriteCanvas
