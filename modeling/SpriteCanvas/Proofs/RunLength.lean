import SpriteCanvas.Proofs.Punctuality

/-!
# How long a run takes

A run that is not stopped, and none of whose sprites is recast, keeps to the agendas of its scripts
and ends, completed, when the longest of its loops is over; and then whoever waits for it to end
goes on (`Course.run_on_time`).
-/

namespace SpriteCanvas

/-- The number of blocks in the longest of the first loops of all scripts. -/
def Cast.longest (c : Cast) : Nat := (c.members.map (·.script.loopSteps)).max?.getD 0

namespace Cast

variable {c : Cast} {m : Member}

theorem le_longest (hm : m ∈ c.members) : m.script.loopSteps ≤ c.longest :=
  List.le_max?_getD_of_mem (List.mem_map_of_mem hm)

theorem longest_of_nil (h : c.members = []) : c.longest = 0 := by
  simp [longest, h]

theorem exists_longest (h : c.members ≠ []) : ∃ m ∈ c.members, m.script.loopSteps = c.longest := by
  obtain ⟨n, hn⟩ := Option.isSome_iff_exists.1 (List.isSome_max?_of_mem
    (List.mem_map_of_mem (f := (·.script.loopSteps)) (List.head_mem h)))
  obtain ⟨m, hm, hs⟩ := List.mem_map.1 (List.max?_mem hn)
  exact ⟨m, hm, by rw [hs, longest, hn]; rfl⟩

end Cast

namespace Moment

variable {settings : Settings} {n : Moment} {log : List Entry} {run : RunId}

/-- Of a run that has not begun nothing is known. -/
theorem Lawful.unknown (h : start.Lawful settings log)
    (hrun : (start.after settings log).world.runs.begun ≤ run) :
    (start.after settings log).world.runs.outcome? run = none
      ∧ ∀ t, ⟨t, .finish run⟩ ∉ log := by
  refine h.induction (P := fun log n => ∀ run, n.world.runs.begun ≤ run →
    n.world.runs.outcome? run = none ∧ ∀ t, ⟨t, .finish run⟩ ∉ log)
    (fun _ _ => ⟨rfl, fun _ => List.not_mem_nil⟩) (fun e _ log n hn _ ha run hrun => ?_) run hrun
  rw [runs_perform] at hrun ⊢
  have hbegun := Nat.le_trans (n.world.runs.begun_le_perform e.deed) hrun
  obtain ⟨hout, hlog⟩ := hn run hbegun
  have hne : e.deed ≠ .finish run := fun he => by
    rw [he] at ha
    exact Nat.lt_irrefl _ (Nat.lt_of_lt_of_le ha.1 hbegun)
  refine ⟨(RunBook.outcome?_perform_of_ne hne).trans hout, fun t ht => ?_⟩
  rcases List.mem_append.1 ht with ht | ht
  · exact hlog t ht
  · exact hne (congrArg Entry.deed (List.mem_singleton.1 ht)).symm

theorem outcome?_after_of_unstopped (hrun : run ∉ n.world.runs.stopped)
    (hlog : ∀ e ∈ log, e.deed ≠ .answer .stop)
    (h : (∃ t, ⟨t, .finish run⟩ ∈ log) ∨ n.world.runs.outcome? run = some .completed) :
    (n.after settings log).world.runs.outcome? run = some .completed :=
  after_of_finish (I := fun b => run ∉ b.stopped) (P := fun b => b.outcome? run = some .completed)
    hrun (fun e he _ hb => by rwa [RunBook.stopped_perform (hlog e he)])
    (fun _ _ hb => RunBook.outcome?_perform_of_unstopped hb) h

theorem outcome?_after_of_not_finish (h : ∀ t, ⟨t, .finish run⟩ ∉ log) :
    (n.after settings log).world.runs.outcome? run = n.world.runs.outcome? run := by
  induction log generalizing n with
  | nil => rfl
  | cons e log ih =>
    refine (ih fun t ht => h t (List.mem_cons_of_mem e ht)).trans ?_
    rw [runs_perform]
    exact RunBook.outcome?_perform_of_ne fun he => h e.time (by rw [← he]; exact List.mem_cons_self)

end Moment

/-! ## The run -/

namespace Course

variable {settings : Settings} {x y : Course} {run : RunId} {log : List Entry}

/-- A run begins while the host is quiet. -/
structure Begins (settings : Settings) (x : Course) (run : RunId) : Prop where
  follows : Show.Follows settings x.clock .start x.chronicle x.engine
  manned : x.Manned
  quiet : x.engine.scene.audience.waiting = []
  play : ∃ engine, x.engine.play? = some (run, engine)

/-- A run that began at `x` has come to `y` by what is in `log`: it was not stopped, and none of its
sprites was recast. -/
structure Performs (settings : Settings) (x : Course) (run : RunId) (y : Course)
    (log : List Entry) : Prop where
  follows : Show.Follows settings y.clock .start y.chronicle y.engine
  manned : y.Manned
  chronicle : y.chronicle = x.chronicle ++ log
  quiet : y.engine.scene.audience.waiting = []
  clock_le : x.clock ≤ y.clock
  begun : run < y.engine.world.runs.begun
  unstopped : ∀ e ∈ log, e.deed ≠ .answer .stop
  spared : ∀ e ∈ log, ∀ m ∈ x.engine.world.cast.members, e.deed.recast? ≠ some m.id
  member : ∀ p ∈ y.engine.performers, p.run = run →
    ∃ m ∈ x.engine.world.cast.members, p.role = ⟨run, m.id, m.generation⟩
  onSchedule : ∀ m ∈ x.engine.world.cast.members,
    Show.OnSchedule settings x.clock ⟨run, m.id, m.generation⟩ m.script y.clock y.engine log
  ended : ∀ t, ⟨t, .finish run⟩ ∈ log → (∀ p ∈ y.engine.performers, p.run ≠ run)
    ∧ t = x.clock + x.engine.world.cast.longest * settings.stepDelay

theorem Begins.run_eq (hx : Begins settings x run) : run = x.engine.world.runs.begun := by
  obtain ⟨engine, hplay⟩ := hx.play
  obtain ⟨runs, hb, -⟩ := Show.perm_of_play? hplay
  exact RunBook.begun_of_begin? hb

theorem Begins.not_stopped (hx : Begins settings x run) : run ∉ x.engine.world.runs.stopped :=
  fun h => Nat.lt_irrefl _ (hx.run_eq ▸ hx.follows.2.serves.2 run (.inr h))

theorem Begins.ne_of_mem (hx : Begins settings x run) {p : Performer}
    (hp : p ∈ x.engine.performers) : p.run ≠ run := by
  rintro rfl
  exact Nat.lt_irrefl _ (hx.run_eq ▸ hx.follows.2.serves.2 _ (hx.follows.2.serves.1 p hp))

namespace Performs

theorem nodup (h : Performs settings x run y log) :
    (y.engine.performers.map Performer.role).Nodup := h.follows.2.cues.nodup

theorem world_eq (h : Performs settings x run y log) :
    ((Moment.start.after settings x.chronicle).after settings log).world = y.engine.world := by
  rw [← Moment.after_append, ← h.chronicle]
  exact h.follows.2.world

/-- Every performer of the run may go on. -/
theorem mayGoOn (hx : Begins settings x run) (h : Performs settings x run y log) {p : Performer}
    (hp : p ∈ y.engine.performers) (hrun : p.run = run) : p.mayGoOn y.engine.world := by
  obtain ⟨m, hm, hrole⟩ := h.member p hp hrun
  obtain ⟨-, hid, hgen⟩ := Role.mk.inj hrole
  have hspares : ∀ e ∈ log, e.deed.Spares m.id := fun e he =>
    ⟨h.unstopped e he, h.spared e he m hm⟩
  obtain ⟨hstopped, hpart⟩ := Moment.after_of_spares 
    (n := Moment.start.after settings x.chronicle) hspares
  rw [h.world_eq, hx.follows.2.world] at hstopped hpart
  have hns : p.isStopped y.engine.world = false := by
    refine Bool.eq_false_iff.2 fun hs => hx.not_stopped ?_
    rwa [Performer.isStopped_iff, hrun, hstopped] at hs
  have hcur : y.engine.world.cast.isCurrent p.id p.generation = true := by
    rw [hid, hgen, Cast.isCurrent_eq, hpart, Cast.part?, Cast.find?_of_mem hm]
    exact decide_eq_true rfl
  rw [Performer.mayGoOn, hns, hcur]
  rfl

/-- When nobody of the run is left, all its loops are over. -/
theorem end_le (honSchedule : ∀ m ∈ x.engine.world.cast.members,
      Show.OnSchedule settings x.clock ⟨run, m.id, m.generation⟩ m.script y.clock y.engine log)
    (hclock : x.clock ≤ y.clock) (hnone : ∀ p ∈ y.engine.performers, p.run ≠ run) :
    x.clock + x.engine.world.cast.longest * settings.stepDelay ≤ y.clock := by
  by_cases hc : x.engine.world.cast.members = []
  · rw [Cast.longest_of_nil hc, Nat.zero_mul]
    exact hclock
  · obtain ⟨m, hm, hlongest⟩ := Cast.exists_longest hc
    rw [← hlongest]
    rcases honSchedule m hm with ⟨hp, hrole, -⟩ | ⟨-, -, hends⟩
    · exact absurd (congrArg Role.run hrole) (hnone _ hp)
    · exact hends

/-- While somebody of the run is left, it is not over. -/
theorem le_end (h : Performs settings x run y log) {p : Performer}
    (hp : p ∈ y.engine.performers) (hrun : p.run = run) :
    y.clock ≤ x.clock + x.engine.world.cast.longest * settings.stepDelay := by
  obtain ⟨m, hm, hrole⟩ := h.member p hp hrun
  have hle := (hrole ▸ h.onSchedule m hm).le_of_mem hp
  exact Nat.le_trans hle (Nat.add_le_add_left
    (Nat.mul_le_mul_right settings.stepDelay (Cast.le_longest hm)) x.clock)

/-- What a move does to a run whose parts it keeps on schedule. -/
theorem next (h : Performs settings x run y log) {m : Move}
    (hcall : ∀ c, m = .call c → c ≠ .stop
      ∧ ∀ s ∈ x.engine.world.cast.members, c.recast? ≠ some s.id)
    (hsub : ∀ p ∈ (y.next settings m).performers, p.run = run →
      ∃ q ∈ y.engine.performers, q.role = p.role)
    (honSchedule : ∀ s ∈ x.engine.world.cast.members,
      Show.OnSchedule settings x.clock ⟨run, s.id, s.generation⟩ s.script (y.move settings m).clock
        (y.next settings m) (log ++ y.engine.scene.log settings y.clock (y.deeds settings m)))
    (hended : .finish run ∈ y.deeds settings m → (∀ p ∈ (y.next settings m).performers, p.run ≠ run)
      ∧ y.clock = x.clock + x.engine.world.cast.longest * settings.stepDelay) :
    Performs settings x run (y.move settings m)
      (log ++ y.engine.scene.log settings y.clock (y.deeds settings m)) := by
  have hadded : ∀ e ∈ y.engine.scene.log settings y.clock (y.deeds settings m),
      e.time = y.clock ∧ (e.deed ∈ y.deeds settings m ∨ ∃ n, e.deed = .tell n) :=
    fun e => Scene.of_mem_log_quiet settings y.clock h.quiet
  have hanswer : ∀ e ∈ y.engine.scene.log settings y.clock (y.deeds settings m), ∀ c,
      e.deed = .answer c → m = .call c := by
    intro e he c hc
    rcases (hadded e he).2 with hd | ⟨n, hn⟩
    · exact eq_call_of_mem_deeds (hc ▸ hd)
    · rw [hn] at hc
      cases hc
  refine ⟨follows_next h.follows m, h.manned.move m, ?_, quiet_run settings h.quiet [m],
    Nat.le_trans h.clock_le (clock_le_move settings y m), ?_, fun e he hd => ?_,
    fun e he s hs hd => ?_, fun p hp hrun => ?_, honSchedule, fun t ht => ?_⟩
  · rw [← List.append_assoc, ← h.chronicle]
    rfl
  · have hbegun : (Moment.start.after settings y.chronicle).world.runs.begun
        ≤ (Moment.start.after settings (y.move settings m).chronicle).world.runs.begun := by
      simp only [Course.move, Moment.after_append]
      exact Moment.begun_le_after _ _
    rw [h.follows.2.world, (follows_next h.follows m).2.world] at hbegun
    exact Nat.lt_of_lt_of_le h.begun hbegun
  · rcases List.mem_append.1 he with he | he
    · exact h.unstopped e he hd
    · exact (hcall _ (hanswer e he _ hd)).1 rfl
  · rcases List.mem_append.1 he with he | he
    · exact h.spared e he s hs hd
    · obtain ⟨c, hc, hrecast⟩ := Deed.eq_answer_of_recast? hd
      exact (hcall c (hanswer e he c hc)).2 s hs hrecast
  · obtain ⟨q, hq, hrole⟩ := hsub p hp hrun
    obtain ⟨s, hs, hs'⟩ := h.member q hq ((congrArg Role.run hrole).trans hrun)
    exact ⟨s, hs, hrole.symm.trans hs'⟩
  · rcases List.mem_append.1 ht with ht | ht
    · obtain ⟨hnone, htime⟩ := h.ended t ht
      refine ⟨fun p hp hrun => ?_, htime⟩
      obtain ⟨q, hq, hrole⟩ := hsub p hp hrun
      exact hnone q hq ((congrArg Role.run hrole).trans hrun)
    · obtain ⟨rfl, hd | ⟨n, hn⟩⟩ := hadded _ ht
      · exact hended hd
      · cases hn

/-- A move that adds nobody to the run, and in which nobody of it takes a turn. -/
theorem next_of_others (h : Performs settings x run y log) {m : Move}
    (hcall : ∀ c, m = .call c → c ≠ .stop
      ∧ ∀ s ∈ x.engine.world.cast.members, c.recast? ≠ some s.id)
    (hclock : (y.move settings m).clock = y.clock)
    (hps : ∀ p, p.run = run → (p ∈ (y.next settings m).performers ↔ p ∈ y.engine.performers))
    (hdeeds : ∀ d ∈ y.deeds settings m, d ≠ .finish run ∧ ∀ r, d.role? = some r → r.run ≠ run) :
    Performs settings x run (y.move settings m)
      (log ++ y.engine.scene.log settings y.clock (y.deeds settings m)) := by
  refine h.next hcall (fun p hp hrun => ⟨p, (hps p hrun).1 hp, rfl⟩) (fun s hs => ?_)
    fun hf => absurd rfl (hdeeds _ hf).1
  rw [hclock]
  refine (h.onSchedule s hs).keeps (fun p hrole => hps p (congrArg Role.run hrole)) ?_
  rw [Scene.played_log]
  refine played_eq_nil fun e he hr => ?_
  obtain ⟨d, hd, rfl⟩ := List.mem_map.1 he
  exact (hdeeds d hd).2 _ hr rfl

/-- A performer of any run takes its turn. -/
theorem performer (hx : Begins settings x run) (h : Performs settings x run y log) (place : Nat) :
    Performs settings x run (y.move settings (.performer place))
      (log ++ y.engine.scene.log settings y.clock (y.deeds settings (.performer place))) := by
  rcases performer_cases settings y place with
    ⟨hnext, hdeeds⟩ | ⟨before, p, after, hps, hr, hnext, hdeeds⟩
  · refine h.next_of_others (fun _ hc => Move.noConfusion hc) rfl (fun p _ => by rw [hnext])
      fun d hd => ?_
    rw [hdeeds] at hd
    cases hd
  have hmem : p ∈ y.engine.performers := Show.mem_of_around hps
  have honSchedule : ∀ m ∈ x.engine.world.cast.members,
      Show.OnSchedule settings x.clock ⟨run, m.id, m.generation⟩ m.script y.clock
        (y.next settings (.performer place))
        (log ++ y.engine.scene.log settings y.clock (y.deeds settings (.performer place))) := by
    intro m hm
    have hold := h.onSchedule m hm
    rw [hnext, hdeeds]
    by_cases hrole : p.role = ⟨run, m.id, m.generation⟩
    · rw [← hrole] at hold ⊢
      exact hold.turn hps h.nodup hr h.quiet (h.mayGoOn hx hmem (congrArg Role.run hrole))
    · refine hold.keeps (fun q hq => ?_) ?_
      · rw [hps]
        exact Show.mem_performerTurn_iff fun he => hrole (he.symm.trans hq)
      · rw [Show.played_performerDeeds]
        refine played_eq_nil fun e he => ?_
        obtain ⟨d, hd, rfl⟩ := List.mem_map.1 he
        rw [Performer.role?_of_mem_turnDeeds settings y.clock hd]
        exact fun he => hrole (Option.some.inj he)
  refine h.next (fun _ hc => Move.noConfusion hc) (fun q hq _ => ?_) honSchedule fun hf => ?_
  · rw [hnext] at hq
    rcases Show.mem_or_role_of_performerTurn hq with hq | hrole
    · exact ⟨q, hps ▸ hq, rfl⟩
    · exact ⟨p, hmem, hrole.symm⟩
  · rw [hdeeds] at hf
    rcases List.mem_append.1 hf with hf | hf
    · cases Performer.role?_of_mem_turnDeeds settings y.clock hf
    · split at hf
      · rename_i hleft
        obtain rfl := Deed.finish.inj (Show.eq_of_mem_finishDeeds hf)
        have hnone : ∀ q ∈ (y.next settings (.performer place)).performers, q.run ≠ p.run := by
          rw [hnext, Show.performers_performerTurn, Option.isNone_iff_eq_none.1 hleft]
          exact Show.gone_of_mem_finishDeeds hf
        exact ⟨hnone, Nat.le_antisymm (h.le_end hmem rfl)
          (end_le (y := y.move settings (.performer place)) honSchedule h.clock_le hnone)⟩
      · cases hf

theorem move (hx : Begins settings x run) (h : Performs settings x run y log) {m : Move}
    (htimely : y.Timely settings m) (hcall : ∀ c, m = .call c → c ≠ .stop
      ∧ ∀ s ∈ x.engine.world.cast.members, c.recast? ≠ some s.id) :
    Performs settings x run (y.move settings m)
      (log ++ y.engine.scene.log settings y.clock (y.deeds settings m)) := by
  cases m with
  | call c =>
    refine h.next_of_others hcall rfl (fun p _ => .rfl) fun d hd => ?_
    obtain rfl := List.mem_singleton.1 hd
    exact ⟨nofun, nofun⟩
  | play =>
    rcases play_cases settings y with
      ⟨hnext, hdeeds⟩ | ⟨run', engine, hp, hnext, hdeeds⟩
    · refine h.next_of_others hcall rfl (fun p _ => by rw [hnext]) fun d hd => ?_
      rw [hdeeds] at hd
      cases hd
    · obtain ⟨runs, hb, hperm⟩ := Show.perm_of_play? hp
      have hne : run' ≠ run := by
        rw [RunBook.begun_of_begin? hb]
        exact (Nat.ne_of_lt h.begun).symm
      refine h.next_of_others hcall rfl (fun p hrun => ?_) fun d hd => ?_
      · rw [hnext, ← hperm.mem_iff]
        refine ⟨fun hmem => (List.mem_append.1 hmem).resolve_left fun hmem => ?_,
          List.mem_append_right _⟩
        exact hne ((Show.run_of_mem_entering hmem).symm.trans hrun)
      · rw [hdeeds] at hd
        rcases List.mem_cons.1 hd with rfl | hd
        · exact ⟨nofun, nofun⟩
        · rw [Show.eq_of_mem_finishDeeds hd]
          exact ⟨fun he => hne (Deed.finish.inj he), nofun⟩
  | alarms =>
    refine h.next_of_others hcall rfl (fun p _ => .rfl) fun d hd => ?_
    rcases List.mem_cons.1 hd with rfl | hd
    · exact ⟨nofun, nofun⟩
    · obtain ⟨a, -, rfl⟩ := List.mem_map.1 hd
      exact ⟨nofun, nofun⟩
  | performer place => exact h.performer hx place
  | pass duration =>
    refine h.next hcall (fun p hp _ => ⟨p, hp, rfl⟩) (fun s hs => ?_) nofun
    have hpass := (h.onSchedule s hs).pass htimely.1 (Nat.le_add_right y.clock duration) htimely.2
    exact (List.append_nil log).symm ▸ hpass

theorem moves (hx : Begins settings x run) : ∀ {ms : List Move} {y : Course} {log : List Entry},
    Performs settings x run y log → y.Throughout settings (Timely settings) ms →
    (∀ c, .call c ∈ ms → c ≠ .stop ∧ ∀ s ∈ x.engine.world.cast.members, c.recast? ≠ some s.id) →
    ∃ log', Performs settings x run (y.run settings ms) log'
  | [], _, log, h, _, _ => ⟨log, h⟩
  | m :: _, y, _, h, hms, hcalls =>
    have hm := h.move hx hms.1 fun c hc => hcalls c (hc ▸ List.mem_cons_self)
    moves hx (y := y.move settings m) hm hms.2 fun c hc => hcalls c (List.mem_cons_of_mem m hc)

end Performs

/-! ## The end -/

namespace Performs

theorem outcome? (hx : Begins settings x run) (h : Performs settings x run y log) :
    ((∃ t, ⟨t, .finish run⟩ ∈ log) → y.engine.world.runs.outcome? run = some .completed)
      ∧ ((∀ t, ⟨t, .finish run⟩ ∉ log) → y.engine.world.runs.outcome? run = none) := by
  have hfresh := @hx.follows.1.unknown _ _ run
    (by rw [hx.follows.2.world]; exact Nat.le_of_eq hx.run_eq.symm)
  rw [← h.world_eq]
  refine ⟨fun hf => Moment.outcome?_after_of_unstopped ?_ h.unstopped (.inl hf), fun hf => ?_⟩
  · rw [hx.follows.2.world]
    exact hx.not_stopped
  · exact (Moment.outcome?_after_of_not_finish hf).trans hfresh.1

theorem manned_or_finish (hx : Begins settings x run) (h : Performs settings x run y log) :
    (∃ p ∈ y.engine.performers, p.run = run) ∨ ∃ t, ⟨t, .finish run⟩ ∈ log := by
  refine (h.manned run h.begun).imp_right fun ⟨t, _, ht⟩ => ⟨t, ?_⟩
  rw [h.chronicle] at ht
  refine (List.mem_append.1 ht).resolve_left fun ht => ?_
  exact (hx.follows.1.unknown
    (by rw [hx.follows.2.world]; exact Nat.le_of_eq hx.run_eq.symm)).2 t ht

/-- Who is left of the run in a settled engine rests until before the end. -/
theorem rests (h : Performs settings x run y log) (hs : y.engine.turn? settings y.clock = none)
    {p : Performer} (hp : p ∈ y.engine.performers) (hrun : p.run = run) :
    ∃ l wake, p.phase = .resting l wake ∧ y.clock < wake
      ∧ wake ≤ x.clock + x.engine.world.cast.longest * settings.stepDelay := by
  obtain ⟨m, hm, hrole⟩ := h.member p hp hrun
  obtain ⟨l, wake, hphase, hlt, hends⟩ := (hrole ▸ h.onSchedule m hm).rests hp h.nodup hs
  have hle := Nat.mul_le_mul_right settings.stepDelay (Cast.le_longest hm)
  exact ⟨l, wake, hphase, hlt, by omega⟩

theorem le_clock (h : Performs settings x run y log) {e : Entry} (he : e ∈ log) :
    e.time ≤ y.clock := by
  have hmem : e ∈ y.chronicle := h.chronicle ▸ List.mem_append_right _ he
  exact Nat.le_trans (h.follows.1.time_mem hmem).2 h.follows.2.clock

end Performs

/-- A run that began at `x` keeps its times in what is in `log`, which comes to `y`.  What has been
played of a script is the beginning of its agenda, and in a settled engine just what the agenda says
until then.  The run ends when the longest of its loops is over, all that was on the agendas having
been played, and it is completed. -/
structure KeepsTime (settings : Settings) (x : Course) (run : RunId) (y : Course)
    (log : List Entry) : Prop where
  inOrder : ∀ m ∈ x.engine.world.cast.members, played ⟨run, m.id, m.generation⟩ log
    <+: m.script.agenda settings.stepDelay x.clock ⟨run, m.id, m.generation⟩
  settled : y.engine.turn? settings y.clock = none → ∀ m ∈ x.engine.world.cast.members,
    played ⟨run, m.id, m.generation⟩ log
      = (m.script.agenda settings.stepDelay x.clock ⟨run, m.id, m.generation⟩).filter
        (·.time ≤ y.clock)
  ended : ∀ t, ⟨t, .finish run⟩ ∈ log →
    t = x.clock + x.engine.world.cast.longest * settings.stepDelay
      ∧ y.engine.world.runs.outcome? run = some .completed
      ∧ ∀ m ∈ x.engine.world.cast.members, played ⟨run, m.id, m.generation⟩ log
        = m.script.agenda settings.stepDelay x.clock ⟨run, m.id, m.generation⟩
  ends : y.engine.turn? settings y.clock = none → ((∃ t, ⟨t, .finish run⟩ ∈ log)
    ↔ x.clock + x.engine.world.cast.longest * settings.stepDelay ≤ y.clock)

theorem Performs.keepsTime (hx : Begins settings x run) (h : Performs settings x run y log) :
    KeepsTime settings x run y log where
  inOrder m hm := (h.onSchedule m hm).played_isPrefix
  settled hs m hm := (h.onSchedule m hm).played_eq hs fun _ => h.le_clock
  ended t ht := by
    obtain ⟨hnone, htime⟩ := h.ended t ht
    refine ⟨htime, (h.outcome? hx).1 ⟨t, ht⟩, fun m hm => ?_⟩
    rcases h.onSchedule m hm with ⟨hp, hrole, -⟩ | ⟨-, hagenda, -⟩
    · exact absurd (congrArg Role.run hrole) (hnone _ hp)
    · exact hagenda
  ends hs := by
    refine ⟨fun ⟨t, ht⟩ => end_le h.onSchedule h.clock_le (h.ended t ht).1, fun hle => ?_⟩
    refine (h.manned_or_finish hx).resolve_left fun ⟨p, hp, hrun⟩ => ?_
    obtain ⟨l, wake, -, hlt, hwake⟩ := h.rests hs hp hrun
    omega

/-- At its beginning a run is on schedule. -/
theorem Begins.performs (hx : Begins settings x run) :
    Performs settings x run (x.move settings .play)
      (x.engine.scene.log settings x.clock (x.deeds settings .play)) := by
  obtain ⟨engine, hplay⟩ := hx.play
  obtain ⟨runs, hb, hperm⟩ := Show.perm_of_play? hplay
  have hnext : x.next settings .play = engine := by simp only [next, hplay]
  have hengine : (x.move settings .play).engine = engine := hnext
  have hdeeds : x.deeds settings .play = .begin run :: Show.finishDeeds run engine.performers := by
    simp only [deeds, hplay]
  have hadded : ∀ e ∈ x.engine.scene.log settings x.clock (x.deeds settings .play),
      e.time = x.clock ∧ (e.deed = .begin run ∨ e.deed ∈ Show.finishDeeds run engine.performers
        ∨ ∃ n, e.deed = .tell n) := by
    intro e he
    obtain ⟨htime, hd⟩ := Scene.of_mem_log_quiet settings x.clock hx.quiet he
    rw [hdeeds, List.mem_cons, or_assoc] at hd
    exact ⟨htime, hd⟩
  have hbegins : ∀ e ∈ x.engine.scene.log settings x.clock (x.deeds settings .play),
      (∀ c, e.deed ≠ .answer c) ∧ e.deed.role? = none := by
    intro e he
    rcases (hadded e he).2 with h | h | ⟨n, h⟩
    · rw [h]
      exact ⟨fun _ hc => Deed.noConfusion hc, rfl⟩
    · rw [Show.eq_of_mem_finishDeeds h]
      exact ⟨fun _ hc => Deed.noConfusion hc, rfl⟩
    · rw [h]
      exact ⟨fun _ hc => Deed.noConfusion hc, rfl⟩
  have hentering : ∀ m ∈ x.engine.world.cast.members, ∃ p ∈ engine.performers,
      p.role = ⟨run, m.id, m.generation⟩ ∧ p.phase = .opening m.script := fun m hm =>
    ⟨_, hperm.mem_iff.1 (List.mem_append_left _ (List.mem_map_of_mem hm)), rfl, rfl⟩
  refine ⟨follows_next hx.follows .play, hx.manned.move .play, rfl,
    quiet_run settings hx.quiet [.play], Nat.le_refl _, ?_, fun e he hd => ?_,
    fun e he m _ hd => ?_, fun p hp hrun => ?_, fun m hm => ?_, fun t ht => ?_⟩
  · rw [hengine, Show.begun_play? hplay, ← hx.run_eq]
    exact Nat.lt_succ_self run
  · exact (hbegins e he).1 _ hd
  · obtain ⟨c, hc, -⟩ := Deed.eq_answer_of_recast? hd
    exact (hbegins e he).1 c hc
  · rw [hengine] at hp
    rcases List.mem_append.1 (hperm.mem_iff.2 hp) with hp | hp
    · obtain ⟨m, hm, rfl⟩ := List.mem_map.1 hp
      exact ⟨m, hm, rfl⟩
    · exact absurd hrun (hx.ne_of_mem hp)
  · obtain ⟨p, hp, hrole, hphase⟩ := hentering m hm
    have hplayed : played ⟨run, m.id, m.generation⟩
        (x.engine.scene.log settings x.clock (x.deeds settings .play)) = [] :=
      played_eq_nil fun e he hr => by
        cases (hbegins e he).2.symm.trans hr
    rw [hengine]
    refine .here hp hrole ?_ ?_ ?_ <;> rw [hphase]
    · rfl
    · rw [hplayed]
      rfl
    · rfl
  · obtain ⟨htime, h | h | ⟨n, h⟩⟩ := hadded _ ht
    · cases h
    · have hnone := Show.gone_of_mem_finishDeeds h
      refine ⟨hengine ▸ hnone, ?_⟩
      have hc : x.engine.world.cast.members = [] :=
        List.eq_nil_iff_forall_not_mem.2 fun m hm => by
          obtain ⟨p, hp, hrole, -⟩ := hentering m hm
          exact hnone p hp (congrArg Role.run hrole)
      rw [Cast.longest_of_nil hc, Nat.zero_mul]
      exact htime
    · cases h

/-! ## Playing until the end -/

theorem Throughout.exists_of_mem {rule : Course → Move → Prop} {m : Move} :
    ∀ {x : Course} {ms : List Move}, x.Throughout settings rule ms → m ∈ ms → ∃ y, rule y m
  | x, m' :: ms, h, hm => by
    rcases List.mem_cons.1 hm with rfl | hm
    · exact ⟨x, h.1⟩
    · exact exists_of_mem h.2 hm

namespace Performs

/-- What the engine does on its own keeps a run on schedule. -/
theorem leads (hx : Begins settings x run) (h : Performs settings x run y log) {now : Nat}
    {s : Show} (hl : y.Leads settings (Own settings) now s) :
    ∃ y' log', Performs settings x run y' log' ∧ y'.clock = now ∧ y'.engine = s := by
  obtain ⟨ms, hms, hc, he⟩ := hl
  obtain ⟨log', h'⟩ := h.moves hx (hms.mono fun _ _ h => h.2.2.1) fun c hcall =>
    let ⟨_, hown⟩ := hms.exists_of_mem hcall
    absurd rfl (hown.1 c)
  exact ⟨_, log', h', hc, he⟩

/-- While the run goes on, something in a settled engine is due before its end. -/
theorem exists_nextWake? (hx : Begins settings x run) (h : Performs settings x run y log)
    (hs : y.engine.turn? settings y.clock = none)
    (hd : ¬ (y.engine.world.runs.outcome? run).isSome) :
    ∃ t ≤ x.clock + x.engine.world.cast.longest * settings.stepDelay,
      y.engine.nextWake? = some t := by
  rcases h.manned_or_finish hx with ⟨p, hp, hrun⟩ | hf
  · obtain ⟨l, wake, hphase, -, hle⟩ := h.rests hs hp hrun
    obtain ⟨t, ht, hwake⟩ := Show.nextWake?_le_wake hp hphase
    exact ⟨t, Nat.le_trans ht hle, hwake⟩
  · rw [(h.outcome? hx).1 hf] at hd
    exact absurd rfl hd

/-- Who waits for the end of a run gets to it just when the longest of its loops is over. -/
theorem passUntil (hx : Begins settings x run) {now limit : Nat} {s : Show}
    (h : Performs settings x run y log) (hc : y.clock = now) (he : y.engine = s)
    (hs : s.turn? settings now = none)
    (hnow : now ≤ x.clock + x.engine.world.cast.longest * settings.stepDelay)
    (hlimit : x.clock + x.engine.world.cast.longest * settings.stepDelay ≤ limit) :
    (s.passUntil settings (fun s => (s.world.runs.outcome? run).isSome) limit now).1
        = x.clock + x.engine.world.cast.longest * settings.stepDelay
      ∧ (s.passUntil settings (fun s => (s.world.runs.outcome? run).isSome) limit now
          ).2.world.runs.outcome? run = some .completed := by
  obtain ⟨z, ⟨log', hz⟩, hzc, hze, hzs, hle, hd⟩ := exists_done
    (P := fun y => ∃ log, Performs settings x run y log)
    (fun s => (s.world.runs.outcome? run).isSome)
    (fun ⟨_, h⟩ hl =>
      let ⟨z, log', hz, hzc, hze⟩ := h.leads hx hl
      ⟨z, ⟨log', hz⟩, hzc, hze⟩)
    (fun _ ⟨_, h⟩ hs hd => h.exists_nextWake? hx hs hd) hlimit ⟨log, h⟩ hc he hs hnow
  have hf : ∃ t, ⟨t, .finish run⟩ ∈ log' := by
    by_contra hf
    rw [(hz.outcome? hx).2 fun t ht => hf ⟨t, ht⟩] at hd
    cases hd
  rw [← hzc, ← hze]
  exact ⟨Nat.le_antisymm hle (((hz.keepsTime hx).ends hzs).1 hf), (hz.outcome? hx).1 hf⟩

/-- The horizon of a settled engine is not before the end. -/
theorem end_le_horizon (h : Performs settings x run y log)
    (hs : y.engine.turn? settings y.clock = none) :
    x.clock + x.engine.world.cast.longest * settings.stepDelay
      ≤ y.engine.horizon settings y.clock run := by
  by_cases hc : x.engine.world.cast.members = []
  · rw [Cast.longest_of_nil hc, Nat.zero_mul]
    exact Nat.le_trans h.clock_le (Show.le_horizon run)
  · obtain ⟨m, hm, hlongest⟩ := Cast.exists_longest hc
    rw [← hlongest]
    rcases h.onSchedule m hm with ⟨hp, hrole, -, -, hends⟩ | ⟨-, -, hends⟩
    · obtain ⟨l, wake, hphase, -⟩ := Show.rests_of_not_runnable (Show.not_runnable_of_turn? hs hp)
      rw [hphase] at hends
      obtain rfl : _ = run := congrArg Role.run hrole
      exact hends ▸ Show.le_horizon_of_mem hp hphase
    · exact Nat.le_trans hends (Show.le_horizon run)

theorem advanceToEnd (hx : Begins settings x run) (h : Performs settings x run y log)
    (hclock : y.clock ≤ x.clock + x.engine.world.cast.longest * settings.stepDelay) :
    (y.engine.advanceToEnd settings y.clock run).1
        = x.clock + x.engine.world.cast.longest * settings.stepDelay
      ∧ (y.engine.advanceToEnd settings y.clock run).2.world.runs.outcome? run
        = some .completed := by
  have hs := Show.turn?_settle settings y.clock y.engine
  obtain ⟨z, log', hz, hc, he⟩ := h.leads hx (leads_settle rfl rfl)
  have hhorizon := hz.end_le_horizon
  rw [hc, he] at hhorizon
  exact hz.passUntil hx hc he hs hclock (hhorizon hs)

end Performs

theorem Begins.play_step (hx : Begins settings x run) {s : Session} (hs : s.settings = settings)
    (hat : s.At x) : ∃ s', s.step .play = (.outcome (some .completed), s')
      ∧ s'.clock = x.clock + x.engine.world.cast.longest * settings.stepDelay := by
  obtain ⟨engine, hplay⟩ := hx.play
  have hnext : (x.move settings .play).engine = engine := by simp only [Course.move, next, hplay]
  obtain ⟨hclock, houtcome⟩ := hx.performs.advanceToEnd hx (Nat.le_add_right x.clock _)
  rw [hnext] at hclock houtcome
  have hrequest : s.request
      = (.run run, { s with engine := engine, plays := s.plays ++ [.run run] }) := by
    rw [Session.request, ← hat.2, hplay]
  refine ⟨_, Prod.ext ?_ rfl, ?_⟩
  · simp only [Session.step, Session.take, hrequest, Session.await, Session.outcome?, hs, ← hat.1]
    exact congrArg (StepResult.outcome ·) houtcome
  · simp only [Session.step, Session.take, hrequest, Session.await, Session.settle, hs, ← hat.1]
    exact hclock

/-- Runs take as long as their longest loop.  While nobody stops a run that begins when the host
does not call back, and none of its sprites is registered, removed or given a script, and no more
time passes than until something is due, what is played of each script is what its agenda says, and
the run ends, completed, just when the longest of its loops is over.  A session that plays then goes
on, at that time. -/
theorem run_on_time (listening : Listening) {ms ns : List Move} {run : RunId} {engine : Show}
    (hx : (start listening []).run settings ms = x) (hplay : x.engine.play? = some (run, engine))
    (htimely : (x.move settings .play).Throughout settings (Timely settings) ns)
    (hcalls : ∀ c, .call c ∈ ns → c ≠ .stop
      ∧ ∀ m ∈ x.engine.world.cast.members, c.recast? ≠ some m.id)
    (hy : (x.move settings .play).run settings ns = y) (hlog : y.chronicle = x.chronicle ++ log) :
    KeepsTime settings x run y log
      ∧ ∀ s : Session, s.settings = settings → s.At x →
        ∃ s', s.step .play = (.outcome (some .completed), s')
          ∧ s'.clock = x.clock + x.engine.world.cast.longest * settings.stepDelay := by
  have hbegins : Begins settings x run := by
    subst hx
    exact ⟨follows_run settings listening [] ms, manned_run settings listening [] ms,
      quiet_run settings (by cases listening <;> rfl) ms, engine, hplay⟩
  refine ⟨?_, fun s hs hat => hbegins.play_step hs hat⟩
  obtain ⟨log', h⟩ := hbegins.performs.moves hbegins htimely hcalls
  rw [hy] at h
  obtain rfl := List.append_cancel_left (hlog.symm.trans h.chronicle)
  exact h.keepsTime hbegins

/-- A sprite that turns twice in a loop takes two step delays. -/
theorem two_turns_on_time : ∃ x log,
    (start .ignoring []).run .default [.call (.register "a" .center
        [⟨"1", .loop 2⟩, ⟨"2", .turn 90⟩] "t")] = x
      ∧ (x.run .default [.play, .performer 0]).chronicle = x.chronicle ++ log
      ∧ KeepsTime .default x 0 (x.run .default [.play, .performer 0]) log
      ∧ ∀ s : Session, s.settings = .default → s.At x →
        ∃ s', s.step .play = (.outcome (some .completed), s')
          ∧ s'.clock = 2 * Settings.default.stepDelay := by
  generalize hc : Call.register "a" .center _ "t" = c
  obtain ⟨x, hx⟩ : ∃ x, (start .ignoring []).run .default [.call c] = x := ⟨_, rfl⟩
  have hworld : x.engine.world = (World.initial.perform .default 0 (.answer c)).1 := by
    rw [← hx]
    exact (Scene.perform_quiet .default 0 (s := (start .ignoring []).engine.scene) rfl
      (.answer c)).1
  have hbegin : x.engine.world.runs.begin? = some (0, ⟨1, some 0, [], []⟩) := by
    rw [hworld, ← hc]
    rfl
  have hclock : x.clock = 0 := hx ▸ rfl
  have hlongest : x.engine.world.cast.longest = 2 := by
    rw [hworld, ← hc]
    rfl
  obtain ⟨engine, hplay⟩ := Show.exists_play? hbegin
  obtain ⟨log, hlog⟩ := chronicle_run .default x [.play, .performer 0]
  have htimely : (x.move .default .play).Throughout .default (Timely .default) [.performer 0] :=
    ⟨trivial, trivial⟩
  obtain ⟨hkeeps, hstep⟩ := run_on_time .ignoring hx hplay htimely (by simp) rfl hlog
  rw [hclock, hlongest, Nat.zero_add] at hstep
  exact ⟨x, log, hx, hlog, hkeeps, hstep⟩

end Course

end SpriteCanvas
