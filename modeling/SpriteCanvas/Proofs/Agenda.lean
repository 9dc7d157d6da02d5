import SpriteCanvas.Proofs.Endings
import SpriteCanvas.Proofs.Quiet

/-!
# When the blocks of a script are due

In a run that begins at a time and is not disturbed, a performer executes the blocks before the loop
at that time, and the blocks of the loop a step delay apart, each followed by a drain when the delay
is over (`Script.agenda`).  What a turn executes and drains is taken from the front of the agenda of
the performer's phase, and leaves the time at which the performer will have ended
(`Performer.turn_agenda`).
-/

namespace SpriteCanvas

/-- The number of blocks that are executed in the first loop of a script: as many times as it says,
the blocks after it that are no loops. -/
def Script.loopSteps (s : Script) : Nat :=
  match s.dropWhile fun b => !b.command.isLoop with
  | ⟨_, .loop times⟩ :: rest => times.toNat * (body rest).length
  | _ => 0

theorem Script.length_repeated (s : Script) : s.repeated.length = s.loopSteps := by
  unfold repeated loopSteps
  generalize List.dropWhile _ s = t
  rcases t with _ | ⟨⟨id, command⟩, rest⟩
  · rfl
  · cases command <;> simp

/-- What a part has to do in a run that begins at a time `t`, with a step delay `d`. -/
def Script.agenda (d t : Nat) (r : Role) (s : Script) : List Entry :=
  s.opening.map (fun b => ⟨t, .execute r b⟩)
    ++ s.repeated.zipIdx.flatMap fun p =>
      [⟨t + p.2 * d, .execute r p.1⟩, ⟨t + (p.2 + 1) * d, .drain r⟩]

/-- Whether a deed is one that a part executes a block with, or drains with. -/
def Deed.plays (r : Role) : Deed → Bool
  | .execute r' _ | .drain r' => r' = r
  | _ => false

/-- What a part has executed and drained. -/
def played (r : Role) (log : List Entry) : List Entry := log.filter (·.deed.plays r)

theorem Deed.plays_of_role? {r : Role} {d : Deed} (h : d.role? ≠ some r) : d.plays r = false := by
  cases d with
  | execute r' b | drain r' => exact decide_eq_false fun he => h (congrArg some he)
  | _ => rfl

theorem played_append (r : Role) (log log' : List Entry) :
    played r (log ++ log') = played r log ++ played r log' :=
  List.filter_append ..

theorem played_cons (r : Role) (e : Entry) (log : List Entry) :
    played r (e :: log) = played r [e] ++ played r log :=
  played_append r [e] log

theorem played_eq_nil {r : Role} {log : List Entry} (h : ∀ e ∈ log, e.deed.role? ≠ some r) :
    played r log = [] :=
  List.filter_eq_nil_iff.2 fun e he => by simp [Deed.plays_of_role? (h e he)]

/-- What the host does while deeds are done is nothing that a performer plays. -/
theorem Scene.played_log (settings : Settings) (now : Nat) (r : Role) :
    ∀ (ds : List Deed) (s : Scene),
    played r (s.log settings now ds) = played r (ds.map (Entry.mk now))
  | [], _ => rfl
  | d :: ds, s => by
    have hrun : played r (runLog settings now ((s.world.perform settings now d).2.map .tell)
        { s with world := (s.world.perform settings now d).1 }) = [] :=
      played_eq_nil fun e he => by
        rw [(of_mem_runLog settings now he).2]
        exact nofun
    rw [log, List.cons_append, played_cons, played_append, hrun, List.nil_append,
      played_log settings now r ds, List.map_cons]
    exact (played_cons r ⟨now, d⟩ _).symm

/-- Blocks a step delay apart, each with its drain. -/
def rounds (d : Nat) (r : Role) : Nat → Script → List Entry
  | _, [] => []
  | t, b :: bs => ⟨t, .execute r b⟩ :: ⟨t + d, .drain r⟩ :: rounds d r (t + d) bs

theorem rounds_eq (d : Nat) (r : Role) (t k : Nat) (bs : Script) :
    rounds d r (t + k * d) bs = (bs.zipIdx k).flatMap fun p =>
      [⟨t + p.2 * d, .execute r p.1⟩, ⟨t + (p.2 + 1) * d, .drain r⟩] := by
  induction bs generalizing k with
  | nil => rfl
  | cons b bs ih =>
    have hk : t + k * d + d = t + (k + 1) * d := by
      rw [Nat.succ_mul, Nat.add_assoc]
    rw [rounds, hk, ih, List.zipIdx_cons, List.flatMap_cons]
    rfl

theorem le_of_mem_rounds {d : Nat} {r : Role} {e : Entry} : ∀ {bs : Script} {t : Nat},
    e ∈ rounds d r t bs → t ≤ e.time
  | b :: bs, t, he => by
    simp only [rounds, List.mem_cons] at he
    rcases he with rfl | rfl | he
    · exact Nat.le_refl t
    · exact Nat.le_add_right t d
    · exact Nat.le_trans (Nat.le_add_right t d) (le_of_mem_rounds he)

theorem Script.agenda_eq (d t : Nat) (r : Role) (s : Script) :
    s.agenda d t r = s.opening.map (fun b => ⟨t, .execute r b⟩) ++ rounds d r t s.repeated := by
  have h := rounds_eq d r t 0 s.repeated
  rw [Nat.zero_mul, Nat.add_zero] at h
  rw [agenda, h]

theorem Loop.length_todo (l : Loop) : l.todo.length = l.left := by
  simp [todo, left, Nat.add_comm]

theorem Loop.left_entered {b : Block} {times : UInt32} (hb : b.command = .loop times)
    (rest : Script) :
    Loop.left ⟨Script.body rest, times.toNat, []⟩ = Script.loopSteps (b :: rest) := by
  rw [← Script.length_repeated, Script.repeated_cons_of_loop hb, ← length_todo]
  rfl

theorem Script.loopSteps_cons_of_not_loop {b : Block} (hb : ∀ times, b.command ≠ .loop times)
    (rest : Script) : Script.loopSteps (b :: rest) = Script.loopSteps rest := by
  rw [← length_repeated, repeated_cons_of_not_loop hb, length_repeated]

namespace Phase

/-- What is still to be done from a phase on. -/
def agenda (d : Nat) (r : Role) (now : Nat) : Phase → List Entry
  | opening rest => rest.agenda d now r
  | looping l => rounds d r now l.todo
  | resting l wake => ⟨wake, .drain r⟩ :: rounds d r wake l.todo

/-- When that will have been done. -/
def ends (d now : Nat) : Phase → Nat
  | opening rest => now + rest.loopSteps * d
  | looping l => now + l.left * d
  | resting l wake => wake + l.left * d

end Phase

namespace Performer

variable {settings : Settings} {now : Nat} {p q : Performer} {s : Scene} {ds : List Deed}
  {next : Option Performer}

/-- While the host is quiet, what performers do keeps nobody from going on. -/
theorem mayGoOn_performAll (settings : Settings) (now : Nat) (hq : s.audience.waiting = [])
    (hgo : p.mayGoOn s.world) (ds : List Deed) (hds : ∀ d ∈ ds, d.role? ≠ none) :
    p.mayGoOn (s.performAll settings now ds).world := by
  induction ds generalizing s with
  | nil => exact hgo
  | cons d ds ih =>
    obtain ⟨hw, hq⟩ := Scene.perform_quiet settings now hq d
    refine ih hq ?_ fun d' hd' => hds d' (List.mem_cons_of_mem d hd')
    obtain ⟨r, hr⟩ := Option.ne_none_iff_exists'.1 (hds d List.mem_cons_self)
    have hrecast : d.recast? ≠ some p.id := by
      cases d with
      | answer c => cases hr
      | _ => exact nofun
    rwa [hw, mayGoOn, isStopped, World.perform_runs, RunBook.perform_of_role? hr, Cast.isCurrent_eq,
      World.part?_perform settings now s.world hrecast, ← Cast.isCurrent_eq]

/-- A step does what comes first in the agenda, and leaves the rest of it and the time of the
end. -/
theorem step_agenda (hq : s.audience.waiting = []) (hgo : p.mayGoOn s.world)
    (htime : ∀ l wake, p.phase = .resting l wake → wake = now)
    (hstep : StepCase settings now p s ds next) :
    played p.role (ds.map (Entry.mk now))
          ++ next.elim [] (·.phase.agenda settings.stepDelay p.role now)
        = p.phase.agenda settings.stepDelay p.role now
      ∧ next.elim now (·.phase.ends settings.stepDelay now)
        = p.phase.ends settings.stepDelay now := by
  have hunstopped : ¬ p.isStopped s.world := fun h => by simp [mayGoOn, h] at hgo
  have hplayed : ∀ b, played p.role [⟨now, .execute p.role b⟩] = [⟨now, .execute p.role b⟩] :=
    fun b => List.filter_cons_of_pos (by simp [Deed.plays])
  cases hstep with
  | done hp => simp [hp, Phase.agenda, Phase.ends, Script.agenda, Script.opening, Script.repeated,
      Script.loopSteps, played, Deed.plays]
  | @enterLoop b rest times hp hb =>
    rw [hp, Phase.agenda, Phase.ends, Script.agenda_eq, Script.opening_cons_of_loop hb,
      Script.repeated_cons_of_loop hb, ← Loop.left_entered hb]
    exact ⟨rfl, rfl⟩
  | @openingBlock b rest hp hb hgo =>
    rw [hp, Phase.agenda, Phase.ends, Script.agenda_eq, Script.opening_cons_of_not_loop hb,
      Script.repeated_cons_of_not_loop hb, Script.loopSteps_cons_of_not_loop hb]
    refine ⟨?_, rfl⟩
    simp only [List.map_cons, List.map_nil, hplayed, Option.elim_some, enter, Phase.agenda,
      Script.agenda_eq]
    rfl
  | openingQuit hp hb hgo' => exact absurd hgo hgo'
  | loopEnd hp hl =>
    have htodo := Loop.todo_of_next?_none hl
    have hleft := Loop.length_todo _ ▸ congrArg List.length htodo
    rw [hp, Phase.agenda, Phase.ends, htodo, hleft]
    simp [exit, played, Deed.plays, rounds]
  | @loopBlock l l' b hp hl hgo hs =>
    rw [hp, Phase.agenda, Phase.ends, Loop.todo_of_next?_some hl, Loop.left_of_next? hl]
    refine ⟨?_, ?_⟩
    · simp only [List.map_cons, List.map_nil, hplayed, Option.elim_some, enter, Phase.agenda,
        rounds]
      rfl
    · simp only [Option.elim_some, enter, Phase.ends, Nat.succ_mul]
      omega
  | @loopStopped l l' b hp hl hgo' hs =>
    have hgo := mayGoOn_performAll settings now hq hgo [.execute p.role b] (by simp [Deed.role?])
    exact absurd hs fun h => by simp [mayGoOn, h] at hgo
  | loopQuit hp hl hgo' => exact absurd hgo hgo'
  | @wake l t hp hs =>
    obtain rfl := htime l t hp
    rw [hp]
    refine ⟨?_, rfl⟩
    simp [played, Deed.plays, Phase.agenda, enter]
  | wakeStopped hp hs => exact absurd hs hunstopped

/-- Nobody sleeps beyond the step delay, and nobody wakes before it is over. -/
theorem le_wake_of_step (hstep : StepCase settings now p s ds (some q)) {l : Loop} {wake : Nat}
    (hq : q.phase = .resting l wake) : now ≤ wake := by
  cases hstep with
  | loopBlock =>
    simp only [enter, Phase.resting.injEq] at hq
    exact hq.2 ▸ Nat.le_add_right now settings.stepDelay
  | enterLoop | openingBlock | wake => cases hq

theorem wake_le_of_isRunnable {l : Loop} {wake : Nat} (hgo : p.mayGoOn s.world)
    (hp : p.phase = .resting l wake) (hr : p.isRunnable now s.world) : wake ≤ now := by
  have hs : ¬ p.isStopped s.world := fun h => by simp [mayGoOn, h] at hgo
  simpa [isRunnable, hp, hs] using hr

theorem role?_ne_none {d : Deed} (hd : d ∈ p.stepDeeds settings now s) : d.role? ≠ none := by
  rw [role?_of_mem_stepDeeds settings now hd]
  exact nofun

/-- A turn does what comes first in the agenda, and leaves the rest of it and the time of the
end. -/
theorem turn_agenda (settings : Settings) (hq : s.audience.waiting = []) (hgo : p.mayGoOn s.world)
    (htime : ∀ l wake, p.phase = .resting l wake → wake = now) :
    played p.role ((p.turnDeeds settings now s).map (Entry.mk now))
          ++ (p.turn settings now s).2.elim [] (·.phase.agenda settings.stepDelay p.role now)
        = p.phase.agenda settings.stepDelay p.role now
      ∧ (p.turn settings now s).2.elim now (·.phase.ends settings.stepDelay now)
        = p.phase.ends settings.stepDelay now := by
  fun_induction turn settings now p s with
  | case1 p s after hnone =>
    have hstep := step_agenda hq hgo htime (p.step_case settings now s)
    rw [hnone] at hstep
    rwa [turnDeeds_of_none settings now hnone]
  | case2 p s after p' hp' hrun ih =>
    have hcase := p.step_case settings now s
    obtain ⟨hagenda, hends⟩ := step_agenda hq hgo htime hcase
    have hrole := role_of_step settings now hp'
    have hquiet := Scene.waiting_performAll settings now (p.stepDeeds settings now s) hq
    have hgo' := mayGoOn_performAll settings now hq hgo (p.stepDeeds settings now s)
      fun d => role?_ne_none
    rw [← p.step_scene] at hquiet hgo'
    have hgo' : p'.mayGoOn after.1.world := by
      obtain ⟨hr, hi, hg⟩ := Role.mk.inj hrole
      rwa [mayGoOn, isStopped, hr, hi, hg]
    rw [show (p.step settings now s).2 = _ from hp'] at hcase hagenda hends
    obtain ⟨ihagenda, ihends⟩ := ih hquiet hgo' fun l wake hph =>
      Nat.le_antisymm (wake_le_of_isRunnable hgo' hph hrun) (le_wake_of_step hcase hph)
    rw [turnDeeds_of_runnable settings now hp' hrun, List.map_append, played_append,
      List.append_assoc]
    rw [hrole] at ihagenda
    exact ⟨by rw [ihagenda]; exact hagenda, ihends.trans hends⟩
  | case3 p s after p' hp' hrun =>
    have hstep := step_agenda hq hgo htime (p.step_case settings now s)
    rw [show (p.step settings now s).2 = _ from hp'] at hstep
    rwa [turnDeeds_of_not_runnable settings now hp' hrun]

end Performer

end SpriteCanvas
