import SpriteCanvas.Proofs.Precedence
import SpriteCanvas.Proofs.Punctuality

/-!
# The pace of a part

A part executes the blocks before its loop, marks its sprite, and from then on it rests after each
block: it does nothing until the step delay is over and then has the waiting checks made, or its run
was stopped and it leaves (`Pace.Beat`).  The chronicle of any moves keeps to this, and where a part
stands is where its performer is (`Course.paced_run`).  If turns go to the first performer that can
take one, each block of a loop finds its sprite marked.
-/

namespace SpriteCanvas

/-- How far a part is. -/
inductive Pace where
  | opening
  | looping
  /-- In the loop, after a block that it executed at some time. -/
  | resting (since : Nat)
  | leaving
  | gone

/-- What a part can do next in a world at a time, and how far it is then. -/
inductive Pace.Beat (settings : Settings) (inTurn : Prop) (r : Role) (w : World) (now : Nat) :
    Pace → Deed → Pace → Prop
  | advance (b : Block) : Beat settings inTurn r w now opening (.execute r b) opening
  | enter : Beat settings inTurn r w now opening (.mark r true) looping
  | finish : Beat settings inTurn r w now opening (.leave r) gone
  | play (b : Block) (hs : r.run ∉ w.runs.stopped)
      (hmarked : inTurn → ∀ m, w.cast.find? r.id = some m → m.figure.looping = true) :
      Beat settings inTurn r w now looping (.execute r b) (resting now)
  | wake {since : Nat} (hs : r.run ∉ w.runs.stopped) (ht : since + settings.stepDelay ≤ now) :
      Beat settings inTurn r w now (resting since) (.drain r) looping
  | exit : Beat settings inTurn r w now looping (.mark r false) leaving
  | stop {since : Nat} (hs : r.run ∈ w.runs.stopped) :
      Beat settings inTurn r w now (resting since) (.mark r false) leaving
  | leave : Beat settings inTurn r w now leaving (.leave r) gone

namespace Pace.Beat

variable {settings : Settings} {inTurn : Prop} {r : Role} {w : World} {now : Nat}
  {pace pace' : Pace} {d : Deed}

theorem role? (h : Beat settings inTurn r w now pace d pace') : d.role? = some r := by
  cases h <;> rfl

/-- Nobody comes back to its opening, nor is who has marked its sprite there. -/
theorem ne_opening (h : Beat settings inTurn r w now pace d pace')
    (hp : pace ≠ .opening ∨ d = .mark r true) : pace' ≠ .opening := by
  cases h with
  | advance b => exact absurd rfl (hp.resolve_right nofun)
  | _ => exact nofun

end Pace.Beat

namespace Moment

/-- What a part does in a stretch of a chronicle brings it from one pace to another. -/
inductive Paced (settings : Settings) (inTurn : Prop) (r : Role) :
    Moment → Pace → List Entry → Pace → Prop
  | nil (n : Moment) (pace : Pace) : Paced settings inTurn r n pace [] pace
  | other {n : Moment} {pace pace' : Pace} {e : Entry} {log : List Entry}
      (h : e.deed.role? ≠ some r)
      (rest : Paced settings inTurn r (n.perform settings e) pace log pace') :
      Paced settings inTurn r n pace (e :: log) pace'
  | own {n : Moment} {pace pace' pace'' : Pace} {e : Entry} {log : List Entry}
      (h : pace.Beat settings inTurn r n.world e.time e.deed pace')
      (rest : Paced settings inTurn r (n.perform settings e) pace' log pace'') :
      Paced settings inTurn r n pace (e :: log) pace''

variable {settings : Settings} {inTurn : Prop} {now : Nat} {r : Role} {n : Moment}
  {pace pace' pace'' : Pace} {log log' : List Entry} {e : Entry} {s : Scene}

namespace Paced

theorem append (h : n.Paced settings inTurn r pace log pace')
    (h' : (n.after settings log).Paced settings inTurn r pace' log' pace'') :
    n.Paced settings inTurn r pace (log ++ log') pace'' := by
  induction h with
  | nil n pace => exact h'
  | other hr _ ih => exact .other hr (ih h')
  | own hbeat _ ih => exact .own hbeat (ih h')

theorem split (h : n.Paced settings inTurn r pace (log ++ log') pace'') :
    ∃ pace', n.Paced settings inTurn r pace log pace'
      ∧ (n.after settings log).Paced settings inTurn r pace' log' pace'' := by
  induction log generalizing n pace with
  | nil => exact ⟨pace, .nil n pace, h⟩
  | cons e log ih =>
    cases h with
    | other hr rest => exact (ih rest).imp fun _ h => ⟨.other hr h.1, h.2⟩
    | own hbeat rest => exact (ih rest).imp fun _ h => ⟨.own hbeat h.1, h.2⟩

/-- What others do leaves a part where it is. -/
theorem of_others (n : Moment) (pace : Pace) (hlog : ∀ e ∈ log, e.deed.role? ≠ some r) :
    n.Paced settings inTurn r pace log pace := by
  induction log generalizing n with
  | nil => exact .nil n pace
  | cons e log ih =>
    obtain ⟨he, hlog⟩ := List.forall_mem_cons.1 hlog
    exact .other he (ih (n.perform settings e) hlog)

theorem eq_of_others (h : n.Paced settings inTurn r pace log pace')
    (hlog : ∀ e ∈ log, e.deed.role? ≠ some r) : pace' = pace := by
  induction h with
  | nil n pace => rfl
  | other _ _ ih => exact ih (List.forall_mem_cons.1 hlog).2
  | own hbeat _ _ => exact absurd hbeat.role? (List.forall_mem_cons.1 hlog).1

theorem beat (h : n.Paced settings inTurn r pace (log ++ e :: log') pace'')
    (hlog : ∀ e ∈ log, e.deed.role? ≠ some r) (he : e.deed.role? = some r) :
    ∃ pace', pace.Beat settings inTurn r (n.after settings log).world e.time e.deed pace'
      ∧ ((n.after settings log).perform settings e).Paced settings inTurn r pace' log' pace'' := by
  obtain ⟨pace', hlog', hrest⟩ := h.split
  obtain rfl := hlog'.eq_of_others hlog
  cases hrest with
  | other hr _ => exact absurd he hr
  | own hbeat rest => exact ⟨_, hbeat, rest⟩

theorem ne_opening (h : n.Paced settings inTurn r pace log pace')
    (hp : pace ≠ .opening ∨ ∃ t, ⟨t, .mark r true⟩ ∈ log) : pace' ≠ .opening := by
  induction h with
  | nil n pace => exact hp.resolve_right nofun
  | @other n pace pace' e log hr _ ih =>
    refine ih (hp.imp_right fun ⟨t, ht⟩ => ⟨t, (List.mem_cons.1 ht).resolve_left ?_⟩)
    rintro rfl
    exact hr rfl
  | own hbeat _ ih =>
    rcases hp with hp | ⟨t, ht⟩
    · exact ih (.inl (hbeat.ne_opening (.inl hp)))
    · rcases List.mem_cons.1 ht with rfl | ht
      · exact ih (.inl (hbeat.ne_opening (.inr rfl)))
      · exact ih (.inr ⟨t, ht⟩)

/-- A part that executes a block after it has marked its sprite rests from then on; its run was not
stopped, and in turn it finds its sprite marked. -/
theorem rests {pre post : List Entry} {t : Nat} {b : Block}
    (h : n.Paced settings inTurn r .opening (pre ++ ⟨t, .execute r b⟩ :: post) pace)
    (hmark : ∃ t', ⟨t', .mark r true⟩ ∈ pre) :
    r.run ∉ (n.after settings pre).world.runs.stopped
      ∧ (inTurn → ∀ m, (n.after settings pre).world.cast.find? r.id = some m →
        m.figure.looping = true)
      ∧ ((n.after settings pre).perform settings ⟨t, .execute r b⟩).Paced settings inTurn r
        (.resting t) post pace := by
  obtain ⟨pace', hpre, hpost⟩ := h.split
  have hne := hpre.ne_opening (.inr hmark)
  cases hpost with
  | other hr _ => exact absurd rfl hr
  | own hbeat rest =>
    cases hbeat with
    | advance b => exact absurd rfl hne
    | play b hs hmarked => exact ⟨hs, hmarked, rest⟩

end Paced

theorem paced_log_cons {d : Deed} {ds : List Deed} (hw : n.world = s.world)
    (hbeat : pace.Beat settings inTurn r s.world now d pace')
    (h : ∀ n : Moment, n.world = (s.perform settings now d).world →
      n.Paced settings inTurn r pace' ((s.perform settings now d).log settings now ds) pace'') :
    n.Paced settings inTurn r pace (s.log settings now (d :: ds)) pace'' := by
  rw [Scene.log, List.cons_append]
  refine .own (hw ▸ hbeat) (.append (.of_others _ pace' fun e he => ?_) (h _ ?_))
  · rw [(Scene.of_mem_runLog settings now he).2]
    rintro ⟨⟩
  · refine world_runLog _ ?_
    simp only [perform, hw]

theorem paced_log_singleton {d : Deed} (hw : n.world = s.world)
    (hbeat : pace.Beat settings inTurn r s.world now d pace') :
    n.Paced settings inTurn r pace (s.log settings now [d]) pace' :=
  paced_log_cons hw hbeat fun n _ => .nil n pace'

theorem paced_log_others {ds : List Deed} (n : Moment) (pace : Pace)
    (hds : ∀ d ∈ ds, d.role? ≠ some r) :
    n.Paced settings inTurn r pace (s.log settings now ds) pace := by
  refine .of_others n pace fun e he => ?_
  rcases (Scene.of_mem_log settings now he).2 with hd | hnone
  · exact hds _ hd
  · rw [hnone]
    exact nofun

end Moment

/-! ## Performers keep the pace -/

/-- The phase of a performer whose part has a pace. -/
inductive Phase.At (stepDelay : Nat) : Phase → Pace → Prop
  | opening (rest : Script) : At stepDelay (opening rest) .opening
  | looping (l : Loop) : At stepDelay (looping l) .looping
  | resting (l : Loop) (since : Nat) :
    At stepDelay (resting l (since + stepDelay)) (.resting since)

namespace Performer

variable {settings : Settings} {inTurn : Prop} {now : Nat} {p : Performer} {ps : List Performer}
  {n : Moment} {pace pace' : Pace} {s : Scene} {ds : List Deed} {next : Option Performer}

/-- A performer stands where its part is, or is gone with it. -/
def Stands (stepDelay : Nat) (next : Option Performer) (pace : Pace) : Prop :=
  next.elim (pace = .gone) (·.phase.At stepDelay pace)

/-- Who may go on in its loop executes its next block, and finds its sprite marked in turn. -/
theorem play_beat {l : Loop} (hp : p.phase = .looping l) (hgo : p.mayGoOn s.world)
    (hmarked : inTurn → Marked s.world (p :: ps)) (b : Block) :
    Pace.looping.Beat settings inTurn p.role s.world now (.execute p.role b) (.resting now) := by
  simp only [mayGoOn, Bool.and_eq_true, Bool.not_eq_true'] at hgo
  obtain ⟨hs, hcur⟩ := hgo
  have hs : ¬ p.isStopped s.world := by simp [hs]
  refine .play b (fun h => hs (isStopped_iff.2 h)) fun hturn m hm => ?_
  have hm : s.world.cast.find? p.id = some m := hm
  have hg : m.generation = p.generation := by simpa [Cast.isCurrent, hm] using hcur
  exact (hmarked hturn).looping p List.mem_cons_self (by rw [hp]; rfl) hs m hm hg

theorem paced_exit (hw : n.world = s.world)
    (hbeat : pace.Beat settings inTurn p.role s.world now (.mark p.role false) .leaving) :
    n.Paced settings inTurn p.role pace (s.log settings now p.exit) .gone :=
  Moment.paced_log_cons hw hbeat fun _ hw => Moment.paced_log_singleton hw .leave

/-- A step of a performer is the next beat of its part, or two. -/
theorem paced_step (hstep : StepCase settings now p s ds next) (hw : n.world = s.world)
    (hat : p.phase.At settings.stepDelay pace) (hr : p.isRunnable now s.world)
    (hmarked : inTurn → Marked s.world (p :: ps)) :
    ∃ pace', n.Paced settings inTurn p.role pace (s.log settings now ds) pace'
      ∧ Stands settings.stepDelay next pace' := by
  cases hstep with
  | done hp =>
    rw [hp] at hat
    cases hat
    exact ⟨_, Moment.paced_log_singleton hw .finish, rfl⟩
  | enterLoop hp hb =>
    rw [hp] at hat
    cases hat
    exact ⟨_, Moment.paced_log_singleton hw .enter, .looping _⟩
  | openingBlock hp hb hgo =>
    rw [hp] at hat
    cases hat
    exact ⟨_, Moment.paced_log_singleton hw (.advance _), .opening _⟩
  | openingQuit hp hb hgo =>
    rw [hp] at hat
    cases hat
    exact ⟨_, Moment.paced_log_singleton hw .finish, rfl⟩
  | loopEnd hp hl | loopQuit hp hl hgo =>
    rw [hp] at hat
    cases hat
    exact ⟨_, paced_exit hw .exit, rfl⟩
  | loopBlock hp hl hgo hs =>
    rw [hp] at hat
    cases hat
    exact ⟨_, Moment.paced_log_singleton hw (play_beat hp hgo hmarked _), .resting _ now⟩
  | loopStopped hp hl hgo hs =>
    rw [hp] at hat
    cases hat
    exact ⟨_, Moment.paced_log_cons hw (play_beat hp hgo hmarked _) fun _ hw =>
      paced_exit hw (.stop (isStopped_iff.1 hs)), rfl⟩
  | wake hp hs =>
    have hs' : p.run ∉ s.world.runs.stopped := fun h => hs (isStopped_iff.2 h)
    rw [hp] at hat
    cases hat
    rename_i l since
    have ht : since + settings.stepDelay ≤ now := by simpa [isRunnable, hp, hs] using hr
    exact ⟨_, Moment.paced_log_singleton hw (.wake hs' ht), .looping _⟩
  | wakeStopped hp hs =>
    rw [hp] at hat
    cases hat
    exact ⟨_, paced_exit hw (.stop (isStopped_iff.1 hs)), rfl⟩

theorem paced_turn (hw : n.world = s.world) (hat : p.phase.At settings.stepDelay pace)
    (hr : p.isRunnable now s.world) (hmarked : inTurn → Marked s.world (p :: ps)
      ∧ ∀ q ∈ ps, q.id = p.id → q.phase.inLoop → q.isStopped s.world) :
    ∃ pace', n.Paced settings inTurn p.role pace
        (s.log settings now (p.turnDeeds settings now s)) pace'
      ∧ Stands settings.stepDelay (p.turn settings now s).2 pace' := by
  fun_induction turn settings now p s generalizing n pace with
  | case1 p s after =>
    rename_i hnone
    obtain ⟨pace', hlog, hstands⟩ :=
      paced_step (p.step_case settings now s) hw hat hr fun h => (hmarked h).1
    rw [hnone] at hstands
    rw [turnDeeds_of_none settings now hnone]
    exact ⟨pace', hlog, hstands⟩
  | case2 p s after p' =>
    rename_i hp' hrun ih
    obtain ⟨pace', hlog, hstands⟩ :=
      paced_step (p.step_case settings now s) hw hat hr fun h => (hmarked h).1
    have hrole := role_of_step settings now hp'
    have hid : p'.id = p.id := congrArg Role.id hrole
    have hw' : (n.after settings (s.log settings now (p.stepDeeds settings now s))).world
        = (p.step settings now s).1.world := by
      rw [Moment.world_log _ hw, ← p.step_scene]
    rw [show (p.step settings now s).2 = _ from hp'] at hstands
    -- In turn the marks are right after the step again, since it stops and marks nobody else.
    obtain ⟨pace'', hlog', hstands'⟩ := ih hw' hstands hrun fun hturn => by
      obtain ⟨hm, ho⟩ := hmarked hturn
      have hm' := hm.step ho (p.step_case settings now s)
      rw [show (p.step settings now s).2 = _ from hp', ← p.step_scene] at hm'
      refine ⟨hm', ?_⟩
      rw [hid, p.step_scene]
      exact Marked.stopped_performAll ho
    rw [turnDeeds_of_runnable settings now hp' hrun, Scene.log_append, ← p.step_scene]
    rw [hrole] at hlog'
    exact ⟨pace'', hlog.append hlog', hstands'⟩
  | case3 p s after p' =>
    rename_i hp' hrun
    obtain ⟨pace', hlog, hstands⟩ :=
      paced_step (p.step_case settings now s) hw hat hr fun h => (hmarked h).1
    rw [show (p.step settings now s).2 = _ from hp'] at hstands
    rw [turnDeeds_of_not_runnable settings now hp' hrun]
    exact ⟨pace', hlog, hstands⟩

end Performer

/-! ## Courses keep the pace -/

namespace Moment

variable {settings : Settings} {n : Moment} {log : List Entry} {e : Entry} {r : Role} {d : Deed}

theorem todo_ne_none_of_role? (ha : n.Allows d) (hr : d.role? = some r) : n.todo r ≠ none := by
  cases d with
  | execute r' b =>
    cases hr
    obtain ⟨-, -, rest, ht⟩ := ha
    simp [ht]
  | mark r' looping =>
    cases hr
    obtain ⟨script, ht⟩ := ha
    simp [ht]
  | drain r' =>
    cases hr
    obtain ⟨-, script, ht⟩ := ha
    simp [ht]
  | leave r' =>
    cases hr
    obtain ⟨script, ht, -⟩ := ha
    simp [ht]
  | _ => cases hr

/-- Whoever has done something is in a run that has begun. -/
theorem Lawful.run_lt_begun (h : start.Lawful settings log) (he : e ∈ log)
    (hr : e.deed.role? = some r) : r.run < (start.after settings log).world.runs.begun := by
  -- A part does nothing unless it has something to do, so the invariant is about such parts too.
  suffices (∀ r, (start.after settings log).todo r ≠ none →
      r.run < (start.after settings log).world.runs.begun)
      ∧ ∀ e ∈ log, ∀ r, e.deed.role? = some r →
        r.run < (start.after settings log).world.runs.begun from this.2 e he r hr
  refine h.induction (P := fun before n => (∀ r, n.todo r ≠ none → r.run < n.world.runs.begun)
    ∧ ∀ e ∈ before, ∀ r, e.deed.role? = some r → r.run < n.world.runs.begun)
    ⟨fun _ ht => absurd rfl ht, fun _ he => by cases he⟩ fun e _ before n hn _ ha => ?_
  obtain ⟨htodo, hbefore⟩ := hn
  have hle : n.world.runs.begun ≤ (n.perform settings e).world.runs.begun := by
    rw [runs_perform]
    exact RunBook.begun_le_perform _ _
  refine ⟨fun r ht => ?_, fun e' he' r hr => Nat.lt_of_lt_of_le ?_ hle⟩
  · rcases todoAfter_ne_none ht with ht | ⟨hd, -⟩
    · exact Nat.lt_of_lt_of_le (htodo r ht) hle
    · rw [hd] at ha
      rw [runs_perform, hd]
      simp [RunBook.perform, RunBook.begin?, ha.1, ha.2]
  · rcases List.mem_append.1 he' with he' | he'
    · exact hbefore e' he' r hr
    · obtain rfl := List.mem_singleton.1 he'
      exact htodo r (todo_ne_none_of_role? ha hr)

end Moment

/-- Where a part stands among performers: at the phase of its performer, or it has not begun or is
gone. -/
inductive Show.Stands (stepDelay : Nat) (ps : List Performer) (r : Role) (pace : Pace) : Prop
  | here {p : Performer} (hp : p ∈ ps) (hrole : p.role = r) (hat : p.phase.At stepDelay pace)
  | away (hp : ∀ p ∈ ps, p.role ≠ r) (h : pace = .opening ∨ pace = .gone)

namespace Show.Stands

variable {d : Nat} {ps qs : List Performer} {r : Role} {pace : Pace}

theorem keeps (h : Stands d ps r pace) (hps : ∀ p, p.role = r → (p ∈ qs ↔ p ∈ ps)) :
    Stands d qs r pace := by
  rcases h with ⟨hp, hrole, hat⟩ | ⟨hp, h⟩
  · exact .here ((hps _ hrole).2 hp) hrole hat
  · exact .away (fun p hmem hrole => hp p ((hps p hrole).1 hmem) hrole) h

end Show.Stands

namespace Course

variable {settings : Settings} {inTurn : Prop} {x : Course} {m : Move}

/-- All that a part has done, it has done at its pace, and it stands where that has brought it. -/
def Paced (settings : Settings) (inTurn : Prop) (x : Course) : Prop :=
  ∀ r, ∃ pace, Moment.start.Paced settings inTurn r .opening x.chronicle pace
    ∧ Show.Stands settings.stepDelay x.engine.performers r pace

/-- A move in which a part does nothing leaves it where it is. -/
theorem paced_of_others {r : Role} {pace : Pace}
    (h : Moment.start.Paced settings inTurn r .opening x.chronicle pace)
    (hstands : Show.Stands settings.stepDelay x.engine.performers r pace)
    (hds : ∀ d ∈ x.deeds settings m, d.role? ≠ some r)
    (hps : ∀ p, p.role = r → (p ∈ (x.next settings m).performers ↔ p ∈ x.engine.performers)) :
    ∃ pace, Moment.start.Paced settings inTurn r .opening (x.move settings m).chronicle pace
      ∧ Show.Stands settings.stepDelay (x.next settings m).performers r pace :=
  ⟨pace, h.append (Moment.paced_log_others _ pace hds), hstands.keeps hps⟩

theorem paced_play (hf : Show.Follows settings x.clock .start x.chronicle x.engine)
    (h : x.Paced settings inTurn) : (x.move settings .play).Paced settings inTurn := by
  intro r
  obtain ⟨pace, hpaced, hstands⟩ := h r
  rcases play_cases settings x with ⟨hnext, hdeeds⟩ | ⟨run, engine, hp, hnext, hdeeds⟩
  · exact paced_of_others hpaced hstands (by simp [hdeeds]) fun p _ => by rw [hnext]
  · have hds : ∀ d ∈ x.deeds settings .play, d.role? ≠ some r := by
      rw [hdeeds]
      refine List.forall_mem_cons.2 ⟨nofun, fun d hd => ?_⟩
      rw [Show.eq_of_mem_finishDeeds hd]
      exact nofun
    obtain ⟨runs, hb, hperm⟩ := Show.perm_of_play? hp
    by_cases hr : r.run = run
    · -- The run is new, so the part has done nothing yet.
      have hlog : ∀ e ∈ x.chronicle, e.deed.role? ≠ some r := fun e he hrole => by
        have hlt := hf.1.run_lt_begun he hrole
        rw [hf.2.world, hr, RunBook.begun_of_begin? hb] at hlt
        exact Nat.lt_irrefl _ hlt
      refine ⟨.opening, (Moment.Paced.of_others _ _ hlog).append
        (Moment.paced_log_others _ _ hds), ?_⟩
      show Show.Stands settings.stepDelay (x.next settings .play).performers r .opening
      rw [hnext]
      by_cases hmem : ∃ p ∈ engine.performers, p.role = r
      · obtain ⟨p, hp, hrole⟩ := hmem
        refine .here hp hrole ?_
        rcases List.mem_append.1 (hperm.mem_iff.2 hp) with hp | hp
        · obtain ⟨m, -, rfl⟩ := List.mem_map.1 hp
          exact .opening _
        · have hlt := hf.2.serves.2 p.run (hf.2.serves.1 p hp)
          have hrun : p.run = run := (congrArg Role.run hrole).trans hr
          rw [hrun, RunBook.begun_of_begin? hb] at hlt
          exact absurd hlt (Nat.lt_irrefl _)
      · exact .away (fun p hp hrole => hmem ⟨p, hp, hrole⟩) (.inl rfl)
    · refine paced_of_others hpaced hstands hds fun p hrole => ?_
      rw [hnext, ← hperm.mem_iff, List.mem_append]
      refine or_iff_right fun hmem => hr ?_
      rw [← hrole]
      exact Show.run_of_mem_entering hmem

theorem paced_performer (hf : Show.Follows settings x.clock .start x.chronicle x.engine)
    {place : Nat} (hturn : inTurn → x.InTurn (.performer place) ∧ x.engine.InOrder)
    (h : x.Paced settings inTurn) : (x.move settings (.performer place)).Paced settings inTurn := by
  intro r
  obtain ⟨pace, hpaced, hstands⟩ := h r
  rcases hp : x.runnable? place with _ | p
  · have hnext : x.next settings (.performer place) = x.engine := by simp only [next, hp]
    have hdeeds : x.deeds settings (.performer place) = [] := by simp only [deeds, hp]
    exact paced_of_others hpaced hstands (by simp [hdeeds]) fun q _ => by rw [hnext]
  have hps := performers_around hp
  have hrunnable : p.isRunnable x.clock x.engine.world := by
    simp only [runnable?, Option.filter_eq_some_iff] at hp
    exact hp.2
  have hnext : x.next settings (.performer place) = Show.performerTurn settings x.clock
      (x.around place).1 p (x.around place).2 x.engine.scene := by simp only [next, hp]
  have hdeeds : x.deeds settings (.performer place) = Show.performerDeeds settings x.clock p
      ((x.around place).1.reverse ++ (x.around place).2) x.engine.scene := by
    simp only [deeds, hp]
  by_cases hr : r = p.role
  · subst hr
    have hperm : x.engine.performers.Perm
        (p :: ((x.around place).1.reverse ++ (x.around place).2)) := hps ▸ List.perm_middle
    have hnodup := hf.2.cues.nodup
    have hothers := Show.role_ne_of_around hnodup hps
    have hat : p.phase.At settings.stepDelay pace := by
      rcases hstands with ⟨hq, hrole, hat⟩ | ⟨haway, -⟩
      · rwa [← Show.OnSchedule.eq_of_role hnodup (Show.mem_of_around hps) hq hrole]
      · exact absurd rfl (haway p (Show.mem_of_around hps))
    have hlatest := @hf.1.latest
    rw [hf.2.world] at hlatest
    obtain ⟨pace', hlog, hp'⟩ := p.paced_turn hf.2.world hat hrunnable
      fun h : inTurn => ⟨(hturn h).2.marked.perm hperm, (hturn h).2.stopped hf.2.serves hlatest hps
        fun q hq => (hturn h).1 q (List.mem_reverse.1 hq)⟩
    refine ⟨pace', ?_, ?_⟩
    · show Moment.start.Paced settings inTurn p.role .opening (x.chronicle ++ _) pace'
      rw [hdeeds, Show.performerDeeds, Scene.log_append]
      refine hpaced.append (hlog.append (Moment.paced_log_others _ _ fun d hd => ?_))
      split at hd
      · rw [Show.eq_of_mem_finishDeeds hd]
        rintro ⟨⟩
      · cases hd
    · show Show.Stands settings.stepDelay (x.next settings (.performer place)).performers p.role
        pace'
      rw [hnext, Show.performers_performerTurn]
      rcases hq : (p.turn settings x.clock x.engine.scene).2 with _ | q
      · rw [hq] at hp'
        exact .away hothers (.inr hp')
      · rw [hq] at hp'
        exact .here (p := q) (by simp) (Performer.role_of_turn hq) hp'
  · refine paced_of_others hpaced hstands (fun d hd => ?_) fun q hrole => ?_
    · rcases Show.role?_of_mem_performerDeeds settings x.clock (hdeeds ▸ hd) with hd | rfl
      · rw [hd]
        exact fun he => hr (Option.some.inj he).symm
      · rintro ⟨⟩
    · rw [hnext, Show.mem_performerTurn_iff (hrole ▸ hr), hps]

theorem paced_move (hf : Show.Follows settings x.clock .start x.chronicle x.engine)
    (hturn : inTurn → x.InTurn m ∧ x.engine.InOrder) (h : x.Paced settings inTurn) :
    (x.move settings m).Paced settings inTurn := by
  cases m with
  | call c =>
    intro r
    obtain ⟨pace, hpaced, hstands⟩ := h r
    exact paced_of_others hpaced hstands (by simp [deeds, Deed.role?]) fun _ _ => .rfl
  | play => exact paced_play hf h
  | alarms =>
    intro r
    obtain ⟨pace, hpaced, hstands⟩ := h r
    refine paced_of_others hpaced hstands (fun d hd => ?_) fun _ _ => .rfl
    rcases List.mem_cons.1 hd with rfl | hd
    · rintro ⟨⟩
    · obtain ⟨a, -, rfl⟩ := List.mem_map.1 hd
      rintro ⟨⟩
  | performer place => exact paced_performer hf hturn h
  | pass duration =>
    intro r
    obtain ⟨pace, hpaced, hstands⟩ := h r
    exact paced_of_others hpaced hstands (by simp [deeds]) fun _ _ => .rfl

/-- Any moves keep the pace of all parts, and if turns go to the first performer that can take one,
each block of a loop finds its sprite marked. -/
theorem paced_run {listening : Listening} {reactions : List Reaction} {ms : List Move}
    (hms : (start listening reactions).Throughout settings (fun y m => inTurn → y.InTurn m) ms) :
    ((start listening reactions).run settings ms).Paced settings inTurn := by
  have hmarked : Marked World.initial [] := ⟨nofun, nofun, nofun⟩
  have hopening : (start listening reactions).Paced settings inTurn := fun _ =>
    ⟨.opening, .nil _ _, .away (fun _ hp => by cases hp) (.inl rfl)⟩
  refine (hms.induction settings (P := fun y =>
    Show.Follows settings y.clock .start y.chronicle y.engine ∧ (inTurn → y.engine.InOrder)
      ∧ y.Paced settings inTurn) ⟨⟨trivial, agrees_start listening reactions⟩,
        fun _ => ⟨.nil, hmarked, nofun⟩, hopening⟩
    fun y m hturn ⟨hf, horder, hpaced⟩ => ⟨follows_next hf m, fun h => ?_, ?_⟩).2.2
  · exact inOrder_move hf (hturn h) (horder h)
  · exact paced_move hf (fun h => ⟨hturn h, horder h⟩) hpaced

end Course

end SpriteCanvas
