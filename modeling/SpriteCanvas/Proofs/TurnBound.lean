import SpriteCanvas.Proofs.Endings
import SpriteCanvas.Proofs.Quiet

/-!
# How many turns settling takes

While the host does not call back, a performer that has taken its turn rests past the present, and
nobody else can take a turn who could not before.  Alarms can be due again after each turn of a
performer, but not after their own.  So each turn lowers twice the number of performers that can
take one, plus one if an alarm is due (`Course.turnsLeft_move`), and settling takes no more turns
than that, in whatever order they are taken (`Course.length_turns_le`).
-/

namespace SpriteCanvas

namespace Scene

variable (settings : Settings) (now : Nat)

/-- While the host is quiet, only a stop stops a run. -/
theorem stopped_performAll_quiet : ∀ {ds : List Deed} {s : Scene}, s.audience.waiting = [] →
    .answer .stop ∉ ds →
    (s.performAll settings now ds).world.runs.stopped = s.world.runs.stopped
  | [], _, _, _ => rfl
  | d :: ds, s, hq, hds => by
    obtain ⟨hw, hq⟩ := perform_quiet settings now hq d
    obtain ⟨hd, hds⟩ := not_or.1 (List.mem_cons.not.1 hds)
    refine (stopped_performAll_quiet (s := s.perform settings now d) hq hds).trans ?_
    rw [hw, World.perform_runs, RunBook.stopped_perform (Ne.symm hd)]

end Scene

theorem Performer.isRunnable_congr {p : Performer} {now : Nat} {w v : World}
    (h : w.runs.stopped = v.runs.stopped) : p.isRunnable now w = p.isRunnable now v := by
  unfold isRunnable isStopped RunBook.isStopped
  rw [h]

namespace Show

/-- How many performers can take a turn. -/
def runnable (now : Nat) (s : Show) : Nat := s.performers.countP (·.isRunnable now s.world)

/-- How many turns can still be taken at a time, at most. -/
def turnsLeft (now : Nat) (s : Show) : Nat :=
  2 * s.runnable now + if s.alarmIsDue now then 1 else 0

variable {settings : Settings} {now : Nat} {s : Show}

theorem turnsLeft_le (now : Nat) (s : Show) : s.turnsLeft now ≤ 2 * s.runnable now + 1 := by
  unfold turnsLeft
  split <;> omega

end Show

namespace Course

variable {settings : Settings} {x : Course} {m : Move}

/-- While the host is quiet, only a stop stops a run. -/
theorem stopped_move (settings : Settings) (hq : x.engine.scene.audience.waiting = [])
    (hm : m ≠ .call .stop) :
    (x.move settings m).engine.world.runs.stopped = x.engine.world.runs.stopped := by
  rw [Show.world, move_scene]
  exact Scene.stopped_performAll_quiet settings x.clock hq fun h => hm (eq_call_of_mem_deeds h)

theorem clock_of_turn (hm : x.Turn m) : (x.move settings m).clock = x.clock := by
  cases m with
  | pass duration => exact hm.elim
  | _ => rfl

/-- A turn of the alarms leaves the performers, and no alarm is due after it. -/
theorem turnsLeft_alarms (settings : Settings) (hq : x.engine.scene.audience.waiting = [])
    (hdue : x.engine.alarmIsDue x.clock) :
    (x.move settings .alarms).engine.turnsLeft x.clock < x.engine.turnsLeft x.clock := by
  have hstopped := stopped_move settings hq (m := .alarms) Move.noConfusion
  have hr : (x.move settings .alarms).engine.runnable x.clock = x.engine.runnable x.clock :=
    List.countP_congr fun p _ => by rw [Performer.isRunnable_congr hstopped]
  have hd : (x.move settings .alarms).engine.alarmIsDue x.clock = false :=
    (Show.alarmIsDue_alarmTurn settings x.clock x.engine).resolve_right fun h => by
      rw [hq] at h
      exact Nat.not_lt_zero _ h
  simp only [Show.turnsLeft, hr, hd, hdue, if_true, Bool.false_eq_true, if_false]
  exact Nat.lt_succ_self _

/-- A performer that has taken its turn can take no other. -/
theorem runnable_performer (settings : Settings) {place : Nat} {p : Performer}
    (hq : x.engine.scene.audience.waiting = []) (hp : x.runnable? place = some p) :
    (x.move settings (.performer place)).engine.runnable x.clock + 1
      = x.engine.runnable x.clock := by
  have hstopped := stopped_move settings hq (m := .performer place) Move.noConfusion
  have hrunnable : p.isRunnable x.clock x.engine.world :=
    (Option.filter_eq_some_iff.1 hp).2
  have hnext : (x.move settings (.performer place)).engine = Show.performerTurn settings x.clock
      (x.around place).1 p (x.around place).2 x.engine.scene := by
    simp only [move, next, hp]
  have hrest : ((p.turn settings x.clock x.engine.scene).2.toList).countP
      (·.isRunnable x.clock x.engine.world) = 0 := by
    refine List.countP_eq_zero.2 fun q hmem => ?_
    have hturn := Option.mem_toList.1 hmem
    have hworld : (p.turn settings x.clock x.engine.scene).1.world.runs.stopped
        = x.engine.world.runs.stopped := by
      rw [Performer.turn_scene]
      refine Scene.stopped_performAll_quiet settings x.clock hq fun hd => ?_
      cases Performer.role?_of_mem_turnDeeds settings x.clock hd
    rw [← Performer.isRunnable_congr hworld]
    exact Performer.not_runnable_of_turn settings x.clock hturn
  have hcongr : (x.move settings (.performer place)).engine.runnable x.clock
      = (x.move settings (.performer place)).engine.performers.countP
        (·.isRunnable x.clock x.engine.world) :=
    List.countP_congr fun q _ => by rw [Performer.isRunnable_congr hstopped]
  rw [hcongr, hnext, Show.performers_performerTurn, Show.runnable, performers_around hp]
  simp only [List.countP_append, hrest, List.countP_cons, hrunnable, if_true]
  omega

/-- Every turn leaves fewer turns. -/
theorem turnsLeft_move (settings : Settings) (hq : x.engine.scene.audience.waiting = [])
    (hm : x.Turn m) :
    (x.move settings m).engine.turnsLeft x.clock < x.engine.turnsLeft x.clock := by
  cases m with
  | alarms => exact turnsLeft_alarms settings hq hm
  | performer place =>
    obtain ⟨p, hp⟩ := Option.isSome_iff_exists.1 hm
    -- One performer fewer pays for this turn, and for alarms that are due again after it.
    have hr := runnable_performer settings hq hp
    have hle := Show.turnsLeft_le x.clock (x.move settings (.performer place)).engine
    have hge : 2 * x.engine.runnable x.clock ≤ x.engine.turnsLeft x.clock := Nat.le_add_right _ _
    omega
  | call c | play | pass duration => exact hm.elim

theorem length_turns_le {ms : List Move} (hq : x.engine.scene.audience.waiting = [])
    (hms : x.Throughout settings Turn ms) : ms.length ≤ x.engine.turnsLeft x.clock := by
  induction ms generalizing x with
  | nil => exact Nat.zero_le _
  | cons m ms ih =>
    have hlt := turnsLeft_move settings hq hms.1
    have hrest := ih (x := x.move settings m) (quiet_run settings hq [m]) hms.2
    rw [clock_of_turn hms.1] at hrest
    exact Nat.succ_le_of_lt (Nat.lt_of_le_of_lt hrest hlt)

end Course

end SpriteCanvas
