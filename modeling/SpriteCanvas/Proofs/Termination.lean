import Mathlib
import SpriteCanvas.Proofs.Agenda
import SpriteCanvas.Proofs.TurnBound

/-!
# Settling and playing end

What the performers of a run have to do is given when it begins, and every turn of one of them
leaves less of it, whatever else happens; so they take only so many turns (`Course.turnsOf_le`).  In
a settled engine they all rest, and a turn puts off nobody's end; so while somebody is left,
something is due before the time at which they will all have ended, and who waits for the run gets
to its end (`Course.HasBegun.advanceToEnd`).
-/

namespace SpriteCanvas

/-! ## What is left of a run -/

namespace Performer

variable {settings : Settings} {now : Nat} {p q : Performer} {s : Scene} {ds : List Deed}

/-- What of the work of a run a performer still has to do. -/
def workFor (run : RunId) (p : Performer) : Nat := if p.run = run then p.phase.work else 0

theorem workFor_of_ne {run : RunId} (h : p.run ≠ run) : p.workFor run = 0 := if_neg h

/-- A turn leaves less of the work of the run whose turn it is, and as much of that of others. -/
theorem workFor_turn (settings : Settings) (now : Nat) (run : RunId) (p : Performer) (s : Scene) :
    ((p.turn settings now s).2.toList.map (workFor run)).sum + (if p.run = run then 1 else 0)
      ≤ p.workFor run := by
  rcases h : (p.turn settings now s).2 with _ | q
  · have := p.phase.work_pos
    simp only [Option.toList_none, List.map_nil, List.sum_nil, workFor]
    split <;> omega
  · have hlt := work_lt_of_turn settings now h
    have hrun : q.run = p.run := congrArg Role.run (role_of_turn h)
    simp only [Option.toList_some, List.map_cons, List.map_nil, List.sum_cons, List.sum_nil,
      workFor, hrun]
    split <;> omega

end Performer

namespace Show

/-- What is left to do for a run. -/
def workFor (run : RunId) (s : Show) : Nat := (s.performers.map (Performer.workFor run)).sum

/-- A run that begins leaves the work for others as it is. -/
theorem workFor_play? {run run' : RunId} {s s' : Show} (h : s.play? = some (run', s'))
    (hne : run' ≠ run) : s'.workFor run = s.workFor run := by
  obtain ⟨runs, -, hperm⟩ := perm_of_play? h
  have hnew : ((entering s.world run').map (Performer.workFor run)).sum = 0 := by
    refine List.sum_eq_zero fun n hn => ?_
    obtain ⟨p, hp, rfl⟩ := List.mem_map.1 hn
    exact Performer.workFor_of_ne (run_of_mem_entering hp ▸ hne)
  rw [workFor, ← (hperm.map (Performer.workFor run)).sum_eq, List.map_append, List.sum_append, hnew,
    Nat.zero_add, workFor]

end Show

/-- Deeds never take back that a run has begun. -/
theorem Scene.begun_le_performAll (settings : Settings) (now : Nat) (ds : List Deed) (s : Scene) :
    s.world.runs.begun ≤ (s.performAll settings now ds).world.runs.begun := by
  induction ds generalizing s with
  | nil => exact Nat.le_refl _
  | cons d ds ih =>
    have htold := (keeps_run settings now ((s.world.perform settings now d).2.map .tell)
      { s with world := (s.world.perform settings now d).1 }).1
    have hdone : s.world.runs.begun ≤ (s.world.perform settings now d).1.runs.begun := by
      rw [World.perform_runs]
      exact RunBook.begun_le_perform _ d
    exact Nat.le_trans (Nat.le_trans hdone (Nat.le_of_eq htold.symm)) (ih _)

namespace Course

variable {settings : Settings} {x : Course} {m : Move} {run : RunId}

/-- Whether a move is a turn of a performer of a run. -/
def isTurnOf (run : RunId) (x : Course) : Move → Bool
  | .performer place => (x.runnable? place).any (·.run = run)
  | _ => false

/-- How many turns the performers of a run take in some moves. -/
def turnsOf (settings : Settings) (run : RunId) : Course → List Move → Nat
  | _, [] => 0
  | x, m :: ms =>
    (if x.isTurnOf run m then 1 else 0) + turnsOf settings run (x.move settings m) ms

theorem begun_le_move (settings : Settings) (x : Course) (m : Move) :
    x.engine.world.runs.begun ≤ (x.move settings m).engine.world.runs.begun := by
  rw [Show.world, Show.world, move_scene]
  exact Scene.begun_le_performAll settings x.clock (x.deeds settings m) x.engine.scene

theorem begun_le_run (settings : Settings) (x : Course) (ms : List Move) :
    x.engine.world.runs.begun ≤ (x.run settings ms).engine.world.runs.begun :=
  run_induction settings x
    (P := fun y => x.engine.world.runs.begun ≤ y.engine.world.runs.begun) (Nat.le_refl _)
    (fun y m h => Nat.le_trans h (begun_le_move settings y m)) ms

/-- A turn of a performer of a run leaves less to do for it, and nothing that happens leaves
more. -/
theorem workFor_move (settings : Settings) (hrun : run < x.engine.world.runs.begun) (m : Move) :
    (x.move settings m).engine.workFor run + (if x.isTurnOf run m then 1 else 0)
      ≤ x.engine.workFor run := by
  cases m with
  | call c | alarms | pass duration => exact Nat.le_refl _
  | play =>
    rcases hp : x.engine.play? with _ | ⟨run', engine⟩
    · simp only [move, next, hp]
      exact Nat.le_refl _
    · obtain ⟨runs, hb, -⟩ := Show.perm_of_play? hp
      have hne : run' ≠ run := by
        rw [RunBook.begun_of_begin? hb]
        exact Nat.ne_of_gt hrun
      simp only [move, next, hp]
      exact Nat.le_of_eq (Show.workFor_play? hp hne)
  | performer place =>
    rcases hp : x.runnable? place with _ | p
    · simp only [move, next, isTurnOf, hp]
      exact Nat.le_refl _
    · have hturn := p.workFor_turn settings x.clock run x.engine.scene
      have hnext : (x.move settings (.performer place)).engine.performers
          = (x.around place).1.reverse
            ++ ((p.turn settings x.clock x.engine.scene).2.toList ++ (x.around place).2) := by
        simp only [move, next, hp]
        exact Show.performers_performerTurn ..
      rw [Show.workFor, Show.workFor, hnext, performers_around hp]
      simp only [isTurnOf, hp, Option.any_some, decide_eq_true_eq, List.map_append, List.map_cons,
        List.sum_append, List.sum_cons]
      omega

/-- The performers of a run take only so many turns, whatever else happens. -/
theorem turnsOf_le (hrun : run < x.engine.world.runs.begun) (ms : List Move) :
    x.turnsOf settings run ms ≤ x.engine.workFor run := by
  induction ms generalizing x with
  | nil => exact Nat.zero_le _
  | cons m ms ih =>
    have hm := workFor_move settings hrun m
    have hrest := ih (x := x.move settings m) (Nat.lt_of_lt_of_le hrun (begun_le_move settings x m))
    rw [turnsOf]
    omega

end Course

/-! ## When a run has ended -/

namespace Performer

variable {settings : Settings} {now : Nat} {p q : Performer} {s : Scene} {ds : List Deed}

/-- A step puts off nobody's end. -/
theorem ends_of_step (hstep : StepCase settings now p s ds (some q))
    (hnow : ∀ l wake, p.phase = .resting l wake → now ≤ wake) :
    q.phase.ends settings.stepDelay now ≤ p.phase.ends settings.stepDelay now := by
  cases hstep with
  | @enterLoop b rest times hp hb =>
    rw [hp]
    exact Nat.le_of_eq (congrArg (now + · * settings.stepDelay) (Loop.left_entered hb rest))
  | @openingBlock b rest hp hb hgo =>
    rw [hp, Phase.ends, Script.loopSteps_cons_of_not_loop hb]
    exact Nat.le_refl _
  | @loopBlock l l' b hp hl hgo hs =>
    rw [hp, enter, Phase.ends, Phase.ends, Loop.left_of_next? hl, Nat.succ_mul]
    omega
  | @wake l t hp hs =>
    rw [hp, enter, Phase.ends, Phase.ends]
    exact Nat.add_le_add_right (hnow l t hp) _

theorem ends_of_turn (hnow : ∀ l wake, p.phase = .resting l wake → now ≤ wake)
    (h : (p.turn settings now s).2 = some q) :
    q.phase.ends settings.stepDelay now ≤ p.phase.ends settings.stepDelay now := by
  fun_induction turn settings now p s with
  | case1 p s after => cases h
  | case2 p s after p' hp' hrun ih =>
    have hcase := p.step_case settings now s
    rw [show (p.step settings now s).2 = _ from hp'] at hcase
    exact Nat.le_trans (ih (fun l wake => le_wake_of_step hcase) h) (ends_of_step hcase hnow)
  | case3 p s after p' hp' hrun =>
    have hcase := p.step_case settings now s
    rw [show (p.step settings now s).2 = _ from hp'] at hcase
    exact Option.some.inj h ▸ ends_of_step hcase hnow

end Performer

namespace Course

variable {settings : Settings} {x y : Course} {m : Move} {run : RunId} {limit : Nat}

/-- The performers of a run rest, none beyond its wake, and will have ended by a time. -/
def EndsBy (settings : Settings) (run : RunId) (limit : Nat) (x : Course) : Prop :=
  ∀ p ∈ x.engine.performers, p.run = run → ∃ l wake, p.phase = .resting l wake
    ∧ x.clock ≤ wake ∧ wake + l.left * settings.stepDelay ≤ limit

/-- In a settled engine that time is the horizon of the run. -/
theorem endsBy_horizon (hs : x.engine.turn? settings x.clock = none) (run : RunId) :
    x.EndsBy settings run (x.engine.horizon settings x.clock run) := by
  rintro p hp rfl
  obtain ⟨l, wake, hphase, hlt, -⟩ := Show.rests_of_not_runnable (Show.not_runnable_of_turn? hs hp)
  exact ⟨l, wake, hphase, Nat.le_of_lt hlt, Show.le_horizon_of_mem hp hphase⟩

theorem EndsBy.move (h : x.EndsBy settings run limit) (hm : x.Own settings m) :
    (x.move settings m).EndsBy settings run limit := by
  cases m with
  | call c => exact absurd rfl (hm.1 c)
  | play => exact absurd rfl hm.2.1
  | alarms => exact h
  | performer place =>
    rcases performer_cases settings x place with ⟨hnext, -⟩ | ⟨before, p, after, hps, -, hnext, -⟩
    · intro q hq hrun
      exact h q (hnext ▸ hq) hrun
    · intro q hq hrun
      rw [show (x.move settings (.performer place)).engine = _ from hnext] at hq
      rcases Show.beside_or_turn_of_performerTurn hq with hq | hturn
      · exact h q (Show.mem_of_mem_around hps hq) hrun
      · -- Who has taken its turn rests again, and the turn has put off nothing.
        have hsame : q.run = p.run := congrArg Role.run (Performer.role_of_turn hturn)
        obtain ⟨l, wake, hphase, hnow, hle⟩ := h p (Show.mem_of_around hps) (hsame ▸ hrun)
        obtain ⟨l', wake', hphase', hlt, -⟩ := Show.rests_of_not_runnable
          (Performer.not_runnable_of_turn settings x.clock hturn)
        have hends := Performer.ends_of_turn (fun l' wake' h' => by
          cases hphase.symm.trans h'
          exact hnow) hturn
        rw [hphase, hphase'] at hends
        exact ⟨l', wake', hphase', Nat.le_of_lt hlt, Nat.le_trans hends hle⟩
  | pass duration =>
    intro p hp hrun
    obtain ⟨l, wake, hphase, -, hle⟩ := h p hp hrun
    obtain ⟨t, ht, hnext⟩ := Show.nextWake?_le_wake hp hphase
    exact ⟨l, wake, hphase, Nat.le_trans (hm.2.2.1.2 t hnext) ht, hle⟩

/-- A run has begun in an engine that some moves have led to. -/
structure HasBegun (settings : Settings) (run : RunId) (x : Course) : Prop where
  follows : Show.Follows settings x.clock .start x.chronicle x.engine
  manned : x.Manned
  begun : run < x.engine.world.runs.begun

namespace HasBegun

theorem move (h : x.HasBegun settings run) (m : Move) : (x.move settings m).HasBegun settings run :=
  ⟨follows_next h.follows m, h.manned.move m,
    Nat.lt_of_lt_of_le h.begun (begun_le_move settings x m)⟩

theorem moves (h : x.HasBegun settings run) (ms : List Move) :
    (x.run settings ms).HasBegun settings run :=
  run_induction settings x h (fun _ m hy => hy.move m) ms

/-- It has a performer left, or an outcome. -/
theorem performer_or_outcome (h : x.HasBegun settings run) :
    (∃ p ∈ x.engine.performers, p.run = run) ∨ (x.engine.world.runs.outcome? run).isSome :=
  (h.manned run h.begun).imp_right fun ⟨t, _, ht⟩ => by
    rw [← h.follows.2.world]
    exact Moment.isSome_outcome?_after (.inl ⟨t, ht⟩)

/-- While it goes on and its performers rest, something is due before they will have ended. -/
theorem exists_nextWake? (h : x.HasBegun settings run) (hends : x.EndsBy settings run limit)
    (hd : ¬ (x.engine.world.runs.outcome? run).isSome) :
    ∃ t ≤ limit, x.engine.nextWake? = some t := by
  obtain ⟨p, hp, hrun⟩ := h.performer_or_outcome.resolve_right hd
  obtain ⟨l, wake, hphase, -, hle⟩ := hends p hp hrun
  obtain ⟨t, ht, hnext⟩ := Show.nextWake?_le_wake hp hphase
  exact ⟨t, Nat.le_trans ht (Nat.le_trans (Nat.le_add_right wake _) hle), hnext⟩

/-- Who waits for a run gets to its end. -/
theorem advanceToEnd (h : x.HasBegun settings run) :
    ((x.engine.advanceToEnd settings x.clock run).2.world.runs.outcome? run).isSome := by
  have hs := Show.turn?_settle settings x.clock x.engine
  have hleads : x.Leads settings (Own settings) x.clock (x.engine.settle settings x.clock) :=
    leads_settle rfl rfl
  obtain ⟨ms, -, hc, he⟩ := hleads
  have hends : (x.run settings ms).EndsBy settings run _ :=
    endsBy_horizon (by rw [hc, he]; exact hs) run
  rw [hc, he] at hends
  obtain ⟨z, -, -, hz, -, -, hd⟩ := exists_done
    (P := fun y => y.HasBegun settings run
      ∧ y.EndsBy settings run ((x.engine.settle settings x.clock).horizon settings x.clock run))
    (fun s => (s.world.runs.outcome? run).isSome)
    (fun hy hl => hl.exists_kept hy fun _ m hm hz => ⟨hz.1.move m, hz.2.move hm⟩)
    (fun _ hy _ hd => hy.1.exists_nextWake? hy.2 hd) (Nat.le_refl _) ⟨h.moves ms, hends⟩ hc he hs
    (Show.le_horizon run)
  rw [Show.advanceToEnd, ← hz]
  exact hd

end HasBegun

/-! ## Settling -/

/-- While nobody can take a turn there is none to take. -/
theorem not_turn_of_turn? (h : x.engine.turn? settings x.clock = none) (m : Move) : ¬ x.Turn m := by
  intro hm
  cases m with
  | alarms =>
    rw [Turn, Show.alarmIsDue_of_turn? h] at hm
    cases hm
  | performer place =>
    obtain ⟨p, hp⟩ := Option.isSome_iff_exists.1 hm
    have hmem := Show.mem_of_around (performers_around hp)
    exact Show.not_runnable_of_turn? h hmem (Option.filter_eq_some_iff.1 hp).2
  | call c | play | pass duration => exact hm

/-- Settling an engine ends: in whatever order turns are taken, there are at most two for everybody
who could take one and one more; some turns are what settling takes; and no other is left then. -/
structure Settles (settings : Settings) (x : Course) : Prop where
  atMost : ∀ turns, x.Throughout settings Turn turns →
    turns.length ≤ 2 * x.engine.runnable x.clock + 1
  settled : ∃ turns, x.Throughout settings Turn turns
    ∧ (x.run settings turns).clock = x.clock
    ∧ (x.run settings turns).engine = x.engine.settle settings x.clock
    ∧ ∀ m, ¬ (x.run settings turns).Turn m

theorem settles (settings : Settings) (hq : x.engine.scene.audience.waiting = []) :
    x.Settles settings where
  atMost _ hturns :=
    Nat.le_trans (length_turns_le hq hturns) (Show.turnsLeft_le x.clock x.engine)
  settled := by
    have hleads : x.Leads settings (OwnTurn settings) x.clock (x.engine.settle settings x.clock) :=
      leads_settle_by_turns rfl rfl
    obtain ⟨ms, hms, hc, he⟩ := hleads
    have hs := Show.turn?_settle settings x.clock x.engine
    rw [← he, ← hc] at hs
    exact ⟨ms, hms.mono fun _ _ h => h.2, hc, he, not_turn_of_turn? hs⟩

/-- A run ends: whatever happens, its performers take no more turns than they have work left; and
some turns and the passing of time, which are what waiting for the run is, lead to its end. -/
structure Ends (settings : Settings) (run : RunId) (x : Course) : Prop where
  atMost : ∀ ms, x.turnsOf settings run ms ≤ x.engine.workFor run
  ended : ∃ ms, x.Throughout settings (Own settings) ms
    ∧ (x.run settings ms).clock = (x.engine.advanceToEnd settings x.clock run).1
    ∧ (x.run settings ms).engine = (x.engine.advanceToEnd settings x.clock run).2
    ∧ ((x.run settings ms).engine.world.runs.outcome? run).isSome

theorem HasBegun.ends (h : x.HasBegun settings run) : x.Ends settings run where
  atMost := turnsOf_le h.begun
  ended := by
    have hleads : x.Leads settings (Own settings) (x.engine.advanceToEnd settings x.clock run).1
        (x.engine.advanceToEnd settings x.clock run).2 := leads_advanceToEnd run rfl rfl
    obtain ⟨ms, hms, hc, he⟩ := hleads
    exact ⟨ms, hms, hc, he, he ▸ h.advanceToEnd⟩

end Course

/-! ## Sessions -/

namespace Session

variable {s s' : Session}

/-- The runs among the plays have begun. -/
def Known (s : Session) : Prop := ∀ run, .run run ∈ s.plays → run < s.engine.world.runs.begun

theorem begun_le_of_reaches (h : s.Reaches s') :
    s.engine.world.runs.begun ≤ s'.engine.world.runs.begun := by
  obtain ⟨ms, -, -, he⟩ := h.2 ⟨s.clock, s.engine, []⟩ ⟨rfl, rfl⟩
  have hle := Course.begun_le_run s.settings ⟨s.clock, s.engine, []⟩ ms
  rwa [he] at hle

theorem Known.reaches (h : s.Known) (hr : s.Reaches s') (hplays : s'.plays = s.plays) : s'.Known :=
  fun run hrun => Nat.lt_of_lt_of_le (h run (hplays ▸ hrun)) (begun_le_of_reaches hr)

/-- A run that is asked for has begun. -/
theorem begun_of_request {run : RunId} (h : s.request.1 = .run run) :
    run < s.request.2.engine.world.runs.begun := by
  rcases hp : s.engine.play? with _ | ⟨run', engine⟩
  · rw [request, hp] at h
    cases h
  · rw [request, hp] at h ⊢
    obtain rfl : run' = run := Play.run.inj h
    obtain ⟨runs, hb, -⟩ := Show.perm_of_play? hp
    rw [show engine.world.runs.begun = _ from Show.begun_play? hp, ← RunBook.begun_of_begin? hb]
    exact Nat.lt_succ_self _

theorem plays_request (s : Session) : s.request.2.plays = s.plays ++ [s.request.1] := by
  unfold request
  split <;> rfl

theorem Known.request (h : s.Known) : s.request.2.Known := by
  intro run hrun
  rw [plays_request] at hrun
  rcases List.mem_append.1 hrun with hrun | hrun
  · exact Nat.lt_of_lt_of_le (h run hrun) (begun_le_of_reaches (reaches_request s))
  · exact begun_of_request (List.mem_singleton.1 hrun).symm

theorem Known.act (h : s.Known) (a : Action) : (s.act a).2.Known := by
  cases a with
  | call c => exact h.reaches (reaches_act s (.call c)) rfl
  | spawnPlay => exact h.request
  | finished n => exact h

theorem Known.actAll : ∀ (as : List Action) {s : Session}, s.Known → (actAll as s).2.Known
  | [], _, h => h
  | a :: as, _, h => Known.actAll as (h.act a)

theorem Known.await (h : s.Known) (p : Play) : (s.await p).2.Known :=
  h.reaches (reaches_await s p) (by cases p <;> rfl)

theorem Known.take (h : s.Known) (st : Step) : (s.take st).2.Known := by
  cases st with
  | action a => exact h.act a
  | join n =>
    rw [Session.take]
    split
    · exact h.await _
    · exact h
  | play => exact h.request.await _
  | advance duration => exact h.reaches (reaches_take s (.advance duration)) rfl
  | atomic actions => exact Known.actAll actions h

theorem Known.stepAll : ∀ (steps : List Step) {s : Session}, s.Known → (s.stepAll steps).Known
  | [], _, h => h
  | st :: steps, _, h => Known.stepAll steps ((h.take st).reaches (reaches_settle _) rfl)

/-- Who waits for a play gets its outcome. -/
theorem isSome_await {settings : Settings} {listening : Listening} {reactions : List Reaction}
    (hs : (new settings listening reactions).Reaches s) {p : Play}
    (hp : ∀ run, p = .run run → run < s.engine.world.runs.begun) : (s.await p).1.isSome := by
  cases p with
  | refused => rfl
  | run run =>
    have hsettings : s.settings = settings := hs.1
    have hleads : (Course.start listening reactions).Leads settings (Course.Orderly settings)
        s.clock s.engine := hs.2 _ ⟨rfl, rfl⟩
    obtain ⟨ms, -, hc, he⟩ := hleads
    have hbegun : ((Course.start listening reactions).run settings ms).HasBegun settings run :=
      ⟨Course.follows_run settings listening reactions ms,
        Course.manned_run settings listening reactions ms, he ▸ hp run rfl⟩
    have hend := hbegun.advanceToEnd
    rw [hc, he] at hend
    rw [await, hsettings]
    exact hend

/-- Settling and playing always end.  While the host does not call back, wherever an engine has come
to it settles, within twice as many turns as there are performers who can take one, and one more,
and nobody can take one then; and every run that has begun ends.  A session that joins a play, or
plays, gets an outcome. -/
theorem settling_and_playing_end (settings : Settings) (listening : Listening) :
    (∀ ms, ((Course.start listening []).run settings ms).Settles settings
        ∧ ∀ run < ((Course.start listening []).run settings ms).engine.world.runs.begun,
          ((Course.start listening []).run settings ms).Ends settings run)
      ∧ ∀ steps, (∀ n < ((new settings listening []).stepAll steps).plays.length, ∃ o,
          (((new settings listening []).stepAll steps).step (.join n)).1 = .outcome (some o))
        ∧ ∃ o, (((new settings listening []).stepAll steps).step .play).1 = .outcome (some o) := by
  refine ⟨fun ms => ⟨Course.settles settings ?_, fun run hrun => Course.HasBegun.ends ?_⟩,
    fun steps => ?_⟩
  · exact Course.quiet_run settings (by cases listening <;> rfl) ms
  · exact ⟨Course.follows_run settings listening [] ms, Course.manned_run settings listening [] ms,
      hrun⟩
  · have hknown : ((new settings listening []).stepAll steps).Known :=
      Known.stepAll steps fun _ h => nomatch h
    have hreaches := reaches_stepAll (new settings listening []) steps
    refine ⟨fun n hn => ?_, ?_⟩
    · obtain ⟨o, ho⟩ := Option.isSome_iff_exists.1 (isSome_await hreaches
        (p := ((new settings listening []).stepAll steps).plays[n])
        fun run hrun => hknown run (hrun ▸ List.getElem_mem hn))
      refine ⟨o, ?_⟩
      simp only [step, take, List.getElem?_eq_getElem hn, ho]
    · have hrequest := hreaches.trans (reaches_request _)
      obtain ⟨o, ho⟩ := Option.isSome_iff_exists.1
        (isSome_await hrequest fun _ hrun => begun_of_request hrun)
      exact ⟨o, by simp only [step, take, ho]⟩

end Session

end SpriteCanvas
