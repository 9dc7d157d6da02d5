import Mathlib.Data.List.Nodup
import SpriteCanvas.Proofs.Agenda

/-!
# Performers keep to their agenda

While its run is not stopped and its sprite not recast, a performer in an engine that lets no more
time pass than until something is due is never late: at any time it has played what its agenda says
and is at the place for the rest, or it has played all of it and the time of its end has come
(`Show.OnSchedule`).  The turns of others leave it so, and so do its own and the passing of time.
-/

namespace SpriteCanvas

/-- A phase that is not late: before the loop it is the time of the beginning, and nobody sleeps
beyond the wake. -/
def Phase.Due (t now : Nat) : Phase → Prop
  | .opening _ => now = t
  | .looping _ => False
  | .resting _ wake => now ≤ wake

namespace Show

/-- A part in a run that began at a time `t` is at the place that its agenda says, or has done all
of it and the time of its end has come. -/
inductive OnSchedule (settings : Settings) (t : Nat) (r : Role) (script : Script) (now : Nat)
    (s : Show) (log : List Entry) : Prop
  | here {p : Performer} (hp : p ∈ s.performers) (hrole : p.role = r) (hdue : p.phase.Due t now)
      (hagenda : played r log ++ p.phase.agenda settings.stepDelay r now
        = script.agenda settings.stepDelay t r)
      (hends : p.phase.ends settings.stepDelay now = t + script.loopSteps * settings.stepDelay)
  | gone (hp : ∀ p ∈ s.performers, p.role ≠ r)
      (hagenda : played r log = script.agenda settings.stepDelay t r)
      (hends : t + script.loopSteps * settings.stepDelay ≤ now)

/-- Of the deeds of a performer's turn, only those before the end of its run are played. -/
theorem played_performerDeeds (settings : Settings) (now : Nat) (r : Role) (p : Performer)
    (others : List Performer) (s : Scene) :
    played r (s.log settings now (performerDeeds settings now p others s))
      = played r ((p.turnDeeds settings now s).map (Entry.mk now)) := by
  rw [Scene.played_log, performerDeeds, List.map_append, played_append]
  refine (congrArg _ (played_eq_nil fun e he => ?_)).trans (List.append_nil _)
  obtain ⟨d, hd, rfl⟩ := List.mem_map.1 he
  split at hd
  · rw [eq_of_mem_finishDeeds hd]
    rintro ⟨⟩
  · cases hd

namespace OnSchedule

variable {settings : Settings} {t : Nat} {r : Role} {script : Script} {now : Nat} {s s' : Show}
  {log log' : List Entry} {p : Performer} {before after : List Performer}

/-- What others do leaves a part on schedule. -/
theorem keeps (h : OnSchedule settings t r script now s log)
    (hps : ∀ p, p.role = r → (p ∈ s'.performers ↔ p ∈ s.performers))
    (hplayed : played r log' = []) : OnSchedule settings t r script now s' (log ++ log') := by
  have hplayed : played r (log ++ log') = played r log := by
    rw [played_append, hplayed, List.append_nil]
  rcases h with ⟨hp, hrole, hdue, hagenda, hends⟩ | ⟨hp, hagenda, hends⟩
  · exact .here ((hps _ hrole).2 hp) hrole hdue (hplayed ▸ hagenda) hends
  · exact .gone (fun p hmem hrole => hp p ((hps p hrole).1 hmem) hrole) (hplayed ▸ hagenda) hends

/-- Time passes until something is due. -/
theorem pass (h : OnSchedule settings t r script now s log)
    (hs : s.turn? settings now = none) {later : Nat} (hle : now ≤ later)
    (hdue : ∀ t', s.nextWake? = some t' → later ≤ t') :
    OnSchedule settings t r script later s log := by
  rcases h with ⟨hp, hrole, -, hagenda, hends⟩ | ⟨hp, hagenda, hends⟩
  · obtain ⟨l, wake, hphase, -⟩ := rests_of_not_runnable (not_runnable_of_turn? hs hp)
    obtain ⟨t', ht', hnext⟩ := nextWake?_le_wake hp hphase
    rw [hphase] at hagenda hends
    refine .here hp hrole ?_ ?_ ?_ <;> rw [hphase]
    · exact Nat.le_trans (hdue t' hnext) ht'
    · exact hagenda
    · exact hends
  · exact .gone hp hagenda (Nat.le_trans hends hle)

theorem eq_of_role (hnodup : (s.performers.map Performer.role).Nodup) {q : Performer}
    (hp : p ∈ s.performers) (hq : q ∈ s.performers) (hrole : q.role = p.role) : q = p :=
  List.inj_on_of_nodup_map hnodup hq hp hrole

/-- A part that takes its turn stays on schedule. -/
theorem turn (h : OnSchedule settings t p.role script now s log)
    (hps : s.performers = before.reverse ++ p :: after)
    (hnodup : (s.performers.map Performer.role).Nodup) (hr : p.isRunnable now s.world)
    (hq : s.scene.audience.waiting = []) (hgo : p.mayGoOn s.world) :
    OnSchedule settings t p.role script now
      (performerTurn settings now before p after s.scene)
      (log ++ s.scene.log settings now
        (performerDeeds settings now p (before.reverse ++ after) s.scene)) := by
  have hmem : p ∈ s.performers := mem_of_around hps
  rcases h with ⟨hp, hrole, hdue, hagenda, hends⟩ | ⟨hp, -, -⟩
  · obtain rfl := eq_of_role hnodup hmem hp hrole
    rename_i p
    have htime : ∀ l wake, p.phase = .resting l wake → wake = now := by
      intro l wake hphase
      rw [hphase] at hdue
      exact Nat.le_antisymm (Performer.wake_le_of_isRunnable hgo hphase hr) hdue
    obtain ⟨hturn, hleft⟩ := p.turn_agenda settings hq hgo htime
    have hothers := role_ne_of_around hnodup hps
    rw [← hturn] at hagenda
    rw [← hleft] at hends
    rcases hnext : (p.turn settings now s.scene).2 with _ | q <;>
      simp only [hnext, Option.elim_none, Option.elim_some, List.append_nil] at hagenda hends
    · refine .gone ?_ ?_ (Nat.le_of_eq hends.symm)
      · rw [performers_performerTurn, hnext]
        exact hothers
      · rwa [played_append, played_performerDeeds]
    · obtain ⟨l, wake, hphase, hlt, -⟩ :=
        rests_of_not_runnable (Performer.not_runnable_of_turn settings now hnext)
      refine .here (p := q) ?_ (Performer.role_of_turn hnext) ?_ ?_ hends
      · rw [performers_performerTurn, hnext]
        simp
      · rw [hphase]
        exact Nat.le_of_lt hlt
      · rwa [played_append, played_performerDeeds, List.append_assoc]
  · exact absurd rfl (hp p hmem)

theorem played_isPrefix (h : OnSchedule settings t r script now s log) :
    played r log <+: script.agenda settings.stepDelay t r := by
  rcases h with ⟨-, -, -, hagenda, -⟩ | ⟨-, hagenda, -⟩
  · exact ⟨_, hagenda⟩
  · exact hagenda ▸ List.prefix_rfl

/-- Who rests in a settled show wakes later, and no later than its end. -/
theorem rests (h : OnSchedule settings t p.role script now s log) (hp : p ∈ s.performers)
    (hnodup : (s.performers.map Performer.role).Nodup) (hs : s.turn? settings now = none) :
    ∃ l wake, p.phase = .resting l wake ∧ now < wake
      ∧ wake + l.left * settings.stepDelay = t + script.loopSteps * settings.stepDelay := by
  rcases h with ⟨hq, hrole, -, -, hends⟩ | ⟨hnone, -, -⟩
  · obtain rfl := eq_of_role hnodup hp hq hrole
    obtain ⟨l, wake, hphase, hlt, -⟩ := rests_of_not_runnable (not_runnable_of_turn? hs hp)
    rw [hphase] at hends
    exact ⟨l, wake, hphase, hlt, hends⟩
  · exact absurd rfl (hnone p hp)

/-- In a settled show a part has played what its agenda says until now. -/
theorem played_eq (h : OnSchedule settings t r script now s log)
    (hs : s.turn? settings now = none) (hlog : ∀ e ∈ log, e.time ≤ now) :
    played r log = (script.agenda settings.stepDelay t r).filter (·.time ≤ now) := by
  have hplayed : (played r log).filter (·.time ≤ now) = played r log :=
    List.filter_eq_self.2 fun e he => decide_eq_true (hlog e (List.mem_of_mem_filter he))
  rcases h with ⟨hp, -, -, hagenda, -⟩ | ⟨-, hagenda, -⟩
  · obtain ⟨l, wake, hphase, hlt, -⟩ := rests_of_not_runnable (not_runnable_of_turn? hs hp)
    have hlater : (Phase.agenda settings.stepDelay r now (.resting l wake)).filter
        (·.time ≤ now) = [] := by
      refine List.filter_eq_nil_iff.2 fun e he => ?_
      have hle : wake ≤ e.time := by
        rcases List.mem_cons.1 he with rfl | he
        · exact Nat.le_refl wake
        · exact le_of_mem_rounds he
      simpa using Nat.lt_of_lt_of_le hlt hle
    rw [← hagenda, hphase, List.filter_append, hplayed, hlater, List.append_nil]
  · rw [← hagenda, hplayed]

theorem le_ends {d : Nat} {phase : Phase} (h : phase.Due t now) : now ≤ phase.ends d now := by
  rcases phase with rest | l | ⟨l, wake⟩
  · exact Nat.le_add_right now _
  · exact h.elim
  · exact Nat.le_trans h (Nat.le_add_right wake _)

/-- A part that has not left has time until its end. -/
theorem le_of_mem (h : OnSchedule settings t p.role script now s log) (hmem : p ∈ s.performers) :
    now ≤ t + script.loopSteps * settings.stepDelay := by
  rcases h with ⟨hp, hrole, hdue, -, hends⟩ | ⟨hp, -, -⟩
  · exact hends ▸ le_ends hdue
  · exact absurd rfl (hp p hmem)

end OnSchedule

end Show

end SpriteCanvas
