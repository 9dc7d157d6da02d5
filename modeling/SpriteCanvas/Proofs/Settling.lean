import SpriteCanvas.Proofs.Lawful
import SpriteCanvas.Proofs.Waking

/-!
# Settling ends

At one time each performer takes at most two turns, one to rest and one to notice a stop, and the
alarms take one after each of these and after each reaction of the host.  So every turn costs some
credit (`Show.credit_lt_of_turn?`), and after settling nobody can take a turn
(`Show.turn?_settle`).
-/

namespace SpriteCanvas

namespace Scene

variable (settings : Settings) (now : Nat)

/-- A host never gets another reaction. -/
theorem waiting_run_le (errands : List Errand) (s : Scene) :
    (s.run settings now errands).audience.waiting.length ≤ s.audience.waiting.length := by
  fun_induction run settings now errands s with
  | case1 s => exact Nat.le_refl _
  | case2 n errands s ih =>
    refine Nat.le_trans ih ?_
    have := s.audience.length_hear now n
    show (s.audience.hear now n).2.waiting.length ≤ _
    omega
  | case3 c errands s reply ih => exact ih
  | case4 a errands s ih => exact ih

/-- Notices leave the world as it is, unless they cost the host a reaction. -/
theorem run_tells (ns : List Notice) (s : Scene) :
    (s.run settings now (ns.map .tell)).world = s.world
      ∨ (s.run settings now (ns.map .tell)).audience.waiting.length
        < s.audience.waiting.length := by
  induction ns generalizing s with
  | nil =>
    rw [List.map_nil, run]
    exact .inl rfl
  | cons n ns ih =>
    have hl := s.audience.length_hear now n
    rw [List.map_cons, run]
    rcases hc : (s.audience.hear now n).1 with _ | ⟨c, cs⟩
    · rw [hc] at hl
      simp only [List.length_nil, Nat.zero_add] at hl
      rw [List.map_nil, List.nil_append, ← hl]
      exact ih { s with audience := (s.audience.hear now n).2 }
    · rw [hc] at hl
      refine .inr (Nat.lt_of_le_of_lt (waiting_run_le settings now _ _) ?_)
      simp only [List.length_cons] at hl
      show (s.audience.hear now n).2.waiting.length < _
      omega

theorem waiting_perform_le (d : Deed) (s : Scene) :
    (s.perform settings now d).audience.waiting.length ≤ s.audience.waiting.length :=
  waiting_run_le settings now _ _

theorem waiting_performAll_le (ds : List Deed) (s : Scene) :
    (s.performAll settings now ds).audience.waiting.length ≤ s.audience.waiting.length := by
  induction ds generalizing s with
  | nil => exact Nat.le_refl _
  | cons d ds ih => exact Nat.le_trans (ih _) (waiting_perform_le settings now d s)

/-- Deeds that set no alarm set none, unless they cost the host a reaction. -/
theorem alarms_performAll {ds : List Deed}
    (hd : ∀ d ∈ ds, ∀ w : World, (w.perform settings now d).1.alarms = w.alarms) (s : Scene) :
    (s.performAll settings now ds).world.alarms = s.world.alarms
      ∨ (s.performAll settings now ds).audience.waiting.length < s.audience.waiting.length := by
  induction ds generalizing s with
  | nil => exact .inl rfl
  | cons d ds ih =>
    have hw := hd d List.mem_cons_self s.world
    have hrest := waiting_performAll_le settings now ds (s.perform settings now d)
    rcases run_tells settings now (s.world.perform settings now d).2
      { s with world := (s.world.perform settings now d).1 } with hs | hs
    · have hs : (s.perform settings now d).world = (s.world.perform settings now d).1 := hs
      have hle := waiting_perform_le settings now d s
      rcases ih (fun d hd' => hd d (List.mem_cons_of_mem _ hd')) (s.perform settings now d) with
        h | h
      · refine .inl (h.trans ?_)
        rw [hs, hw]
      · exact .inr (Nat.lt_of_lt_of_le h hle)
    · exact .inr (Nat.lt_of_le_of_lt hrest hs)

end Scene

namespace Schedule

variable {s : Schedule}

theorem purge_purge (s : Schedule) : s.purge.purge = s.purge := by
  fun_induction purge s with
  | case1 s top ht hl =>
    rw [purge]
    split
    · rename_i top' ht'
      cases ht.symm.trans ht'
      rw [if_pos hl]
    · rfl
  | case2 s top ht hl ih => exact ih
  | case3 s ht =>
    rw [purge]
    split
    · rename_i top' ht'
      cases ht.symm.trans ht'
    · rfl

/-- After taking what is due, nothing is. -/
theorem nextDeadline_takeDue (s : Schedule) (now : Nat) :
    (s.takeDue now).2.nextDeadline.1.any (· ≤ now) = false := by
  fun_induction takeDue s now with
  | case1 s p top ht hlt =>
    rw [nextDeadline, purge_purge]
    simp [p, ht, hlt]
  | case2 s p top ht hle others rest hrec ih =>
    rw [hrec] at ih
    exact ih
  | case3 s p ht =>
    rw [nextDeadline, purge_purge]
    simp [p, ht]

end Schedule

theorem World.ring_alarms (w : World) (alarm : AlarmId) (expiry : Expiry) :
    (w.ring alarm expiry).1.alarms = w.alarms := by
  unfold ring
  split
  · rfl
  · split
    · dsimp only
      split <;> rfl
    · dsimp only
      split <;> rfl

namespace Performer

variable (settings : Settings) (now : Nat) {p q : Performer} {s : Scene}

/-- The turns that a performer can still take at a time: one to rest, unless it rests past that
time, and one to notice a stop. -/
def credit (p : Performer) : Nat :=
  match p.phase with
  | .resting _ wake => if wake ≤ now then 2 else 1
  | _ => 2

theorem credit_pos (p : Performer) : 0 < p.credit now := by
  unfold credit
  split
  · split <;> decide
  · decide

theorem credit_le (p : Performer) : p.credit now ≤ 2 := by
  unfold credit
  split
  · split <;> decide
  · decide

theorem credit_of_not_runnable {w : World} (h : ¬ p.isRunnable now w) : p.credit now = 1 := by
  unfold isRunnable at h
  unfold credit
  split
  · rename_i l wake hp
    simp only [hp, Bool.or_eq_true, decide_eq_true_eq, not_or] at h
    rw [if_neg h.1]
  · rename_i hp
    split at h
    · rename_i l wake hp'
      exact absurd hp' (hp l wake)
    · exact absurd rfl h

theorem turn_of_none (h : (p.step settings now s).2 = none) : (p.turn settings now s).2 = none := by
  rw [turn]
  split
  · rfl
  · rename_i p' h'
    cases h.symm.trans h'

/-- A performer that goes on after a turn rests. -/
theorem not_runnable_of_turn (h : (p.turn settings now s).2 = some q) :
    ¬ q.isRunnable now (p.turn settings now s).1.world := by
  fun_induction turn settings now p s with
  | case1 p s after => cases h
  | case2 p s after p' hp' hrun ih => exact ih h
  | case3 p s after p' hp' hrun => exact Option.some.inj h ▸ hrun

/-- A performer that rests past a time can only notice a stop. -/
theorem credit_of_turn (hr : p.isRunnable now s.world)
    (h : (p.turn settings now s).2 = some q) : p.credit now = 2 := by
  unfold credit
  split
  · rename_i l wake hp
    split
    · rfl
    · rename_i hwake
      have hs : p.isStopped s.world := by
        unfold isRunnable at hr
        simpa [hp, hwake] using hr
      have hnone : (p.step settings now s).2 = none := by
        simp only [step, hp, hs, if_true]
      cases (turn_of_none settings now hnone).symm.trans h
  · rfl

end Performer

namespace Show

variable (settings : Settings) (now : Nat) {s s' : Show}

def credits : List Performer → Nat
  | [] => 0
  | p :: ps => p.credit now + credits ps

theorem credits_append (ps qs : List Performer) :
    credits now (ps ++ qs) = credits now ps + credits now qs := by
  induction ps with
  | nil => exact (Nat.zero_add _).symm
  | cons p ps ih => rw [List.cons_append, credits, credits, ih, Nat.add_assoc]

theorem credits_le (ps : List Performer) : credits now ps ≤ 2 * ps.length := by
  induction ps with
  | nil => exact Nat.le_refl _
  | cons p ps ih =>
    have := p.credit_le now
    rw [credits, List.length_cons]
    omega

/-- At least as many as the turns that a show can still take at a time. -/
def credit (s : Show) : Nat :=
  -- Twice, for alarms can be due again after each turn of a performer.
  2 * credits now s.performers + s.scene.audience.waiting.length
    + if s.alarmIsDue now then 1 else 0

theorem credit_le_turnBound (s : Show) : s.credit now ≤ s.turnBound := by
  have := credits_le now s.performers
  unfold credit turnBound
  split <;> omega

theorem waiting_alarmTurn_le (s : Show) :
    (s.alarmTurn settings now).scene.audience.waiting.length
      ≤ s.scene.audience.waiting.length := by
  rw [alarmTurn_scene]
  exact Scene.waiting_performAll_le settings now _ _

/-- If alarms are due again after their turn, a reaction of the host has set them. -/
theorem alarmIsDue_alarmTurn (s : Show) :
    (s.alarmTurn settings now).alarmIsDue now = false
      ∨ (s.alarmTurn settings now).scene.audience.waiting.length
        < s.scene.audience.waiting.length := by
  have hcollect : s.scene.perform settings now .collect = { s.scene with world := { s.world with
      alarms := { s.world.alarms with schedule := (s.world.alarms.schedule.takeDue now).2 } } } :=
    Scene.deliver_nil settings now _
  have hring : ∀ d ∈ (s.world.alarms.schedule.takeDue now).1.map fun a => Deed.ring a.1 a.2,
      ∀ w : World, (w.perform settings now d).1.alarms = w.alarms := by
    intro d hd w
    obtain ⟨a, -, rfl⟩ := List.mem_map.1 hd
    exact w.ring_alarms a.1 a.2
  rw [alarmIsDue, world, alarmTurn_scene, alarmDeeds, Scene.performAll_cons, hcollect]
  refine (Scene.alarms_performAll settings now hring _).imp_left fun h => ?_
  rw [h]
  exact Schedule.nextDeadline_takeDue _ now

theorem credit_alarmTurn (h : s.alarmIsDue now) :
    (s.alarmTurn settings now).credit now < s.credit now := by
  have hps : (s.alarmTurn settings now).performers = s.performers := rfl
  have hle := waiting_alarmTurn_le settings now s
  unfold credit
  rw [hps, if_pos h]
  rcases alarmIsDue_alarmTurn settings now s with hd | hlt
  · rw [hd]
    simp only [Bool.false_eq_true, if_false]
    omega
  · split <;> omega

theorem credits_performerTurn (before : List Performer) (p : Performer) (after : List Performer)
    (scene : Scene) (hr : p.isRunnable now scene.world) :
    credits now (performerTurn settings now before p after scene).performers
      < credits now (before.reverse ++ p :: after) := by
  have hp := p.credit_pos now
  unfold performerTurn
  split
  · rename_i scene' q h
    have hq := congrArg Prod.snd h
    have hnr := Performer.not_runnable_of_turn settings now hq
    have hp := Performer.credit_of_turn settings now hr hq
    have hq := Performer.credit_of_not_runnable now hnr
    simp only [credits_append, credits, hp, hq]
    omega
  · rw [performers_finishIfDone]
    simp only [credits_append, credits]
    omega

theorem credit_performerTurn (before : List Performer) (p : Performer) (after : List Performer)
    (hps : s.performers = before.reverse ++ p :: after) (hr : p.isRunnable now s.scene.world)
    (hd : s.alarmIsDue now = false) :
    (performerTurn settings now before p after s.scene).credit now < s.credit now := by
  have hlt := credits_performerTurn settings now before p after s.scene hr
  have hle : (performerTurn settings now before p after s.scene).scene.audience.waiting.length
      ≤ s.scene.audience.waiting.length := by
    rw [performerTurn_scene]
    exact Scene.waiting_performAll_le settings now _ _
  rw [← hps] at hlt
  unfold credit
  rw [hd]
  simp only [Bool.false_eq_true, if_false]
  split <;> omega

/-- Every turn costs credit. -/
theorem credit_lt_of_turn? (h : s.turn? settings now = some s') :
    s'.credit now < s.credit now := by
  rcases turn?_cases h with ⟨hd, rfl⟩ | ⟨hd, before, p, after, hps, hr, -, rfl⟩
  · exact credit_alarmTurn settings now hd
  · exact credit_performerTurn settings now before p after hps hr hd

theorem turn?_settleWithin : ∀ (n : Nat) (s : Show), s.credit now ≤ n →
    (s.settleWithin settings now n).turn? settings now = none
  | 0, s, hn => by
    rw [settleWithin]
    rcases h : s.turn? settings now with _ | s'
    · rfl
    · have := credit_lt_of_turn? settings now h
      omega
  | n + 1, s, hn => by
    rw [settleWithin]
    split
    · rename_i s' h
      have := credit_lt_of_turn? settings now h
      exact turn?_settleWithin n s' (by omega)
    · assumption

/-- After settling nobody can take a turn. -/
theorem turn?_settle (s : Show) : (s.settle settings now).turn? settings now = none :=
  turn?_settleWithin settings now _ s (credit_le_turnBound now s)

end Show

namespace Session

theorem turn?_step (s : Session) (st : Step) :
    (s.step st).2.engine.turn? (s.step st).2.settings (s.step st).2.clock = none :=
  Show.turn?_settle _ _ _

/-- Whatever steps a session takes, nobody can take a turn after them. -/
theorem turn?_stepAll (settings : Settings) (listening : Listening) (reactions : List Reaction)
    (steps : List Step) :
    ((new settings listening reactions).stepAll steps).engine.turn?
      ((new settings listening reactions).stepAll steps).settings
      ((new settings listening reactions).stepAll steps).clock = none := by
  have hnew : (new settings listening reactions).engine.turn? settings 0 = none := by
    have hd : (new settings listening reactions).engine.alarmIsDue 0 = false := by
      rw [Show.alarmIsDue, Schedule.nextDeadline, Schedule.purge]
      rfl
    rw [Show.turn?, hd]
    rfl
  rcases List.eq_nil_or_concat steps with rfl | ⟨steps, st, rfl⟩
  · exact hnew
  · rw [stepAll, List.concat_eq_append, List.foldl_append]
    exact turn?_step _ st

end Session

end SpriteCanvas
