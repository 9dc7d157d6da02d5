import Mathlib.Data.List.Induction
import SpriteCanvas.Playback.Show

/-!
# What happens in an engine

An engine's world changes by deeds: a call is answered, a run begins, a performer executes a block,
an alarm rings.  After each deed the host is told, and calls that it makes in reaction are deeds of
their own.  Every turn is a list of deeds (`turn_scene`, `alarmTurn_scene`), and `Scene.log` writes
down all that happens while such a list is done.
-/

namespace SpriteCanvas

/-- Where a list with one more element at its end can be split before an element. -/
theorem concat_eq_append_cons {α : Type} {xs pre post : List α} {x y : α}
    (h : xs ++ [y] = pre ++ x :: post) :
    (pre = xs ∧ x = y ∧ post = []) ∨ ∃ mid, post = mid ++ [y] ∧ xs = pre ++ x :: mid := by
  rcases List.eq_nil_or_concat post with rfl | ⟨mid, z, rfl⟩
  · obtain ⟨hpre, hx⟩ := List.append_inj' h rfl
    exact .inl ⟨hpre.symm, (List.singleton_inj.1 hx).symm, rfl⟩
  · have h' : xs ++ [y] = (pre ++ x :: mid) ++ [z] := by simpa using h
    obtain ⟨h₁, h₂⟩ := List.append_inj' h' rfl
    obtain rfl := List.singleton_inj.1 h₂
    exact .inr ⟨mid, by simp, h₁⟩

/-- A part in a run: a sprite, and the generation with which it went into the run. -/
structure Role where
  run : RunId
  id : SpriteId
  generation : Nat
  deriving DecidableEq

/-- One thing that happens. -/
inductive Deed where
  /-- A call is answered. -/
  | answer (c : Call)
  /-- The host hears a notice. -/
  | tell (n : Notice)
  /-- A run begins with everybody who is registered. -/
  | begin (run : RunId)
  | execute (r : Role) (b : Block)
  /-- A performer marks its sprite as inside or outside a loop. -/
  | mark (r : Role) (looping : Bool)
  /-- A performer wakes and has the waiting checks made. -/
  | drain (r : Role)
  /-- A performer ends. -/
  | leave (r : Role)
  | finish (run : RunId)
  /-- The alarms that are due are taken out of the schedule. -/
  | collect
  | ring (alarm : AlarmId) (expiry : Expiry)

/-- The part that a deed of a performer belongs to. -/
def Deed.role? : Deed → Option Role
  | .execute r _ | .mark r _ | .drain r | .leave r => some r
  | _ => none

/-- Something that happened, and when. -/
structure Entry where
  time : Nat
  deed : Deed

theorem Command.eq_loop_of_isLoop : ∀ {c : Command}, c.isLoop → ∃ times, c = .loop times
  | .loop times, _ => ⟨times, rfl⟩

variable (settings : Settings) (now : Nat)

/-- The world after a deed, and what the host is told of it. -/
def World.perform (w : World) : Deed → World × List Notice
  | .answer c => ((w.reply settings now c).world, (w.reply settings now c).notices)
  | .begin _ =>
    match w.runs.begin? with
    | some (_, runs) => ({ w with runs := runs }, [])
    | none => (w, [])
  | .execute r b =>
    match w.cast.find? r.id with
    | some m => w.execute settings now m b.command
    | none => (w, [])
  | .mark r looping => (w.setLooping r.id r.generation looping, [])
  | .drain _ => ((w.drain settings now).1, (w.drain settings now).2.1)
  | .finish run => ({ w with runs := w.runs.finish run }, [])
  | .collect =>
    ({ w with alarms := { w.alarms with schedule := (w.alarms.schedule.takeDue now).2 } }, [])
  | .ring alarm expiry => w.ring alarm expiry
  | .tell _ | .leave _ => (w, [])

namespace Scene

/-- What happens while errands are run. -/
def runLog : List Errand → Scene → List Entry
  | [], _ => []
  | .tell n :: errands, s =>
    ⟨now, .tell n⟩ :: runLog ((s.audience.hear now n).1.map .call ++ errands)
      { s with audience := (s.audience.hear now n).2 }
  | .call c :: errands, s =>
    let reply := s.world.reply settings now c
    ⟨now, .answer c⟩ :: runLog (reply.notices.map .tell ++ .report reply.answer :: errands)
      { s with world := reply.world }
  | .report a :: errands, s =>
    runLog errands { s with audience := s.audience.record (.reaction a) }
termination_by errands s => work errands s
decreasing_by
  · exact work_tell_lt now n errands s
  · exact work_call_lt c reply.notices reply.answer errands s reply.world
  · exact work_report_lt a (.reaction a) errands s

/-- Does a deed and tells the host. -/
def perform (d : Deed) (s : Scene) : Scene :=
  deliver settings now (s.world.perform settings now d).2
    { s with world := (s.world.perform settings now d).1 }

def performAll : List Deed → Scene → Scene
  | [], s => s
  | d :: ds, s => performAll ds (s.perform settings now d)

/-- What happens while deeds are done. -/
def log : List Deed → Scene → List Entry
  | [], _ => []
  | d :: ds, s =>
    ⟨now, d⟩ :: runLog settings now ((s.world.perform settings now d).2.map .tell)
        { s with world := (s.world.perform settings now d).1 }
      ++ log ds (s.perform settings now d)

@[simp] theorem deliver_nil (s : Scene) : deliver settings now [] s = s := by
  simp [deliver, run]

@[simp] theorem performAll_nil (s : Scene) : performAll settings now [] s = s := rfl

@[simp] theorem performAll_cons (d : Deed) (ds : List Deed) (s : Scene) :
    performAll settings now (d :: ds) s = performAll settings now ds (s.perform settings now d) :=
  rfl

theorem performAll_append (ds es : List Deed) (s : Scene) :
    performAll settings now (ds ++ es) s
      = performAll settings now es (performAll settings now ds s) := by
  induction ds generalizing s with
  | nil => rfl
  | cons d ds ih => exact ih _

theorem log_append (ds es : List Deed) (s : Scene) :
    log settings now (ds ++ es) s
      = log settings now ds s ++ log settings now es (performAll settings now ds s) := by
  induction ds generalizing s with
  | nil => rfl
  | cons d ds ih => simp only [List.cons_append, log, performAll, ih, List.append_assoc]

@[simp] theorem perform_mark (r : Role) (looping : Bool) (s : Scene) :
    s.perform settings now (.mark r looping)
      = { s with world := s.world.setLooping r.id r.generation looping } :=
  deliver_nil settings now _

@[simp] theorem perform_leave (r : Role) (s : Scene) : s.perform settings now (.leave r) = s :=
  deliver_nil settings now _

theorem log_mark (r : Role) (looping : Bool) (s : Scene) :
    s.log settings now [.mark r looping] = [⟨now, .mark r looping⟩] := by
  simp [log, World.perform, runLog]

theorem perform_begin {run : RunId} {runs : RunBook} {s : Scene}
    (h : s.world.runs.begin? = some (run, runs)) :
    s.perform settings now (.begin run) = { s with world := { s.world with runs := runs } } := by
  simp only [perform, World.perform, h, deliver_nil]

@[simp] theorem perform_finish (run : RunId) (s : Scene) :
    s.perform settings now (.finish run)
      = { s with world := { s.world with runs := s.world.runs.finish run } } :=
  deliver_nil settings now _

end Scene

namespace Performer

def role (p : Performer) : Role := ⟨p.run, p.id, p.generation⟩

/-- What a performer does when it ends in a loop. -/
def exit (p : Performer) : List Deed := [.mark p.role false, .leave p.role]

def stepDeeds (p : Performer) (s : Scene) : List Deed :=
  match p.phase with
  | .opening [] => [.leave p.role]
  | .opening (b :: _) =>
    if b.command.isLoop then [.mark p.role true]
    else if p.mayGoOn s.world then [.execute p.role b]
    else [.leave p.role]
  | .looping l =>
    match l.next? with
    | none => p.exit
    | some (b, _) =>
      if p.mayGoOn s.world then
        .execute p.role b ::
          if p.isStopped (p.execute settings now b.command s).world then p.exit else []
      else p.exit
  | .resting _ _ => if p.isStopped s.world then p.exit else [.drain p.role]

def turnDeeds (p : Performer) (s : Scene) : List Deed :=
  let after := p.step settings now s
  p.stepDeeds settings now s ++
    match _h : after.2 with
    | none => []
    | some p' => if p'.isRunnable now after.1.world then turnDeeds p' after.1 else []
termination_by p.phase.work
decreasing_by exact work_lt_of_step settings now _h

@[simp] theorem role_enter (p : Performer) (phase : Phase) : (p.enter phase).role = p.role := rfl

theorem execute_eq (p : Performer) (b : Block) (s : Scene) :
    p.execute settings now b.command s = s.perform settings now (.execute p.role b) := by
  unfold execute Scene.perform World.perform
  split
  · rename_i h
    simp [role, h]
  · rename_i m h
    simp [role, h]

theorem leaveLoop_eq (p : Performer) (s : Scene) :
    p.leaveLoop s = Scene.performAll settings now p.exit s := by
  simp [leaveLoop, exit, role]

/-- What a step can be: where the performer stands and what it finds, its deeds, and the
performer after it. -/
inductive StepCase (p : Performer) (s : Scene) : List Deed → Option Performer → Prop
  | done (hp : p.phase = .opening []) : StepCase p s [.leave p.role] none
  | enterLoop {b : Block} {rest : Script} {times : UInt32} (hp : p.phase = .opening (b :: rest))
      (hb : b.command = .loop times) :
      StepCase p s [.mark p.role true]
        (some (p.enter (.looping ⟨Script.body rest, times.toNat, []⟩)))
  | openingBlock {b : Block} {rest : Script} (hp : p.phase = .opening (b :: rest))
      (hb : ∀ times, b.command ≠ .loop times) (hgo : p.mayGoOn s.world) :
      StepCase p s [.execute p.role b] (some (p.enter (.opening rest)))
  | openingQuit {b : Block} {rest : Script} (hp : p.phase = .opening (b :: rest))
      (hb : ∀ times, b.command ≠ .loop times) (hgo : ¬ p.mayGoOn s.world) :
      StepCase p s [.leave p.role] none
  | loopEnd {l : Loop} (hp : p.phase = .looping l) (hl : l.next? = none) :
      StepCase p s p.exit none
  | loopBlock {l l' : Loop} {b : Block} (hp : p.phase = .looping l) (hl : l.next? = some (b, l'))
      (hgo : p.mayGoOn s.world)
      (hs : ¬ p.isStopped (s.perform settings now (.execute p.role b)).world) :
      StepCase p s [.execute p.role b] (some (p.enter (.resting l' (now + settings.stepDelay))))
  | loopStopped {l l' : Loop} {b : Block} (hp : p.phase = .looping l)
      (hl : l.next? = some (b, l')) (hgo : p.mayGoOn s.world)
      (hs : p.isStopped (s.perform settings now (.execute p.role b)).world) :
      StepCase p s (.execute p.role b :: p.exit) none
  | loopQuit {l l' : Loop} {b : Block} (hp : p.phase = .looping l) (hl : l.next? = some (b, l'))
      (hgo : ¬ p.mayGoOn s.world) : StepCase p s p.exit none
  | wake {l : Loop} {t : Nat} (hp : p.phase = .resting l t) (hs : ¬ p.isStopped s.world) :
      StepCase p s [.drain p.role] (some (p.enter (.looping l)))
  | wakeStopped {l : Loop} {t : Nat} (hp : p.phase = .resting l t) (hs : p.isStopped s.world) :
      StepCase p s p.exit none

theorem step_eq (p : Performer) (s : Scene) :
    StepCase settings now p s (p.stepDeeds settings now s) (p.step settings now s).2
      ∧ (p.step settings now s).1
        = Scene.performAll settings now (p.stepDeeds settings now s) s := by
  rcases hp : p.phase with (_ | ⟨b, rest⟩) | l | ⟨l, t⟩
  · simp only [step, stepDeeds, hp]
    exact ⟨.done hp, by simp⟩
  · by_cases hb : b.command.isLoop
    · obtain ⟨times, hb⟩ := Command.eq_loop_of_isLoop hb
      simp only [step, stepDeeds, hp, hb, Command.isLoop, if_true]
      exact ⟨.enterLoop hp hb, by simp [role]⟩
    · have hne : ∀ times, b.command ≠ .loop times := fun times h => hb (h ▸ rfl)
      have hstep : p.step settings now s =
          if p.mayGoOn s.world then
            (p.execute settings now b.command s, some (p.enter (.opening rest)))
          else (s, none) := by
        simp only [step, hp]
      rw [hstep]
      simp only [stepDeeds, hp, hb]
      by_cases hgo : p.mayGoOn s.world
      · simp only [hgo, if_true]
        exact ⟨.openingBlock hp hne hgo, execute_eq settings now p b s⟩
      · simp only [hgo]
        exact ⟨.openingQuit hp hne hgo, by simp⟩
  · simp only [step, stepDeeds, hp]
    rcases hl : l.next? with _ | ⟨b, l'⟩
    · exact ⟨.loopEnd hp hl, leaveLoop_eq settings now p s⟩
    · simp only [execute_eq]
      by_cases hgo : p.mayGoOn s.world
      · by_cases hs : p.isStopped (s.perform settings now (.execute p.role b)).world
        · simp only [hgo, hs, if_true]
          exact ⟨.loopStopped hp hl hgo hs, leaveLoop_eq settings now p _⟩
        · simp only [hgo, hs, if_true]
          exact ⟨.loopBlock hp hl hgo hs, rfl⟩
      · simp only [hgo]
        exact ⟨.loopQuit hp hl hgo, leaveLoop_eq settings now p s⟩
  · simp only [step, stepDeeds, hp]
    by_cases hs : p.isStopped s.world
    · simp only [hs, if_true]
      exact ⟨.wakeStopped hp hs, leaveLoop_eq settings now p s⟩
    · simp only [hs]
      exact ⟨.wake hp hs, rfl⟩

theorem step_case (p : Performer) (s : Scene) :
    StepCase settings now p s (p.stepDeeds settings now s) (p.step settings now s).2 :=
  (step_eq settings now p s).1

theorem role_of_step {p p' : Performer} {s : Scene} (h : (p.step settings now s).2 = some p') :
    p'.role = p.role := by
  have hc := p.step_case settings now s
  rw [h] at hc
  generalize p.stepDeeds settings now s = ds at hc
  cases hc <;> rfl

theorem step_scene (p : Performer) (s : Scene) :
    (p.step settings now s).1 = Scene.performAll settings now (p.stepDeeds settings now s) s :=
  (step_eq settings now p s).2

theorem role?_of_mem_stepDeeds {p : Performer} {s : Scene} {d : Deed}
    (hd : d ∈ p.stepDeeds settings now s) : d.role? = some p.role := by
  have hc := p.step_case settings now s
  generalize p.stepDeeds settings now s = ds at hc hd
  generalize (p.step settings now s).2 = next at hc
  cases hc <;> simp only [exit, List.mem_cons, List.not_mem_nil, or_false] at hd <;>
    rcases hd with rfl | rfl | rfl <;> rfl

theorem turnDeeds_of_none {p : Performer} {s : Scene} (h : (p.step settings now s).2 = none) :
    p.turnDeeds settings now s = p.stepDeeds settings now s := by
  rw [turnDeeds]
  split
  · exact List.append_nil _
  · rename_i h'
    exact absurd (h.symm.trans h') nofun

theorem turnDeeds_of_runnable {p p' : Performer} {s : Scene}
    (h : (p.step settings now s).2 = some p')
    (hr : p'.isRunnable now (p.step settings now s).1.world) :
    p.turnDeeds settings now s
      = p.stepDeeds settings now s ++ p'.turnDeeds settings now (p.step settings now s).1 := by
  rw [turnDeeds]
  split
  · rename_i h'
    exact absurd (h.symm.trans h') nofun
  · rename_i p'' h'
    obtain rfl : p' = p'' := Option.some.inj (h.symm.trans h')
    rw [if_pos hr]

theorem turnDeeds_of_not_runnable {p p' : Performer} {s : Scene}
    (h : (p.step settings now s).2 = some p')
    (hr : ¬ p'.isRunnable now (p.step settings now s).1.world) :
    p.turnDeeds settings now s = p.stepDeeds settings now s := by
  rw [turnDeeds]
  split
  · exact List.append_nil _
  · rename_i p'' h'
    obtain rfl : p' = p'' := Option.some.inj (h.symm.trans h')
    rw [if_neg hr, List.append_nil]

theorem turnDeeds_opening_nil {p : Performer} (s : Scene) (hp : p.phase = .opening []) :
    p.turnDeeds settings now s = [.leave p.role] := by
  have hstep : p.step settings now s = (s, none) := by simp only [step, hp]
  rw [turnDeeds_of_none settings now (congrArg Prod.snd hstep)]
  simp only [stepDeeds, hp]

theorem turnDeeds_opening_cons {p : Performer} {s : Scene} {b : Block} {rest : Script}
    (hp : p.phase = .opening (b :: rest)) (hb : ∀ times, b.command ≠ .loop times)
    (hgo : p.mayGoOn s.world) :
    p.turnDeeds settings now s
      = .execute p.role b :: (p.enter (.opening rest)).turnDeeds settings now
          (s.perform settings now (.execute p.role b)) := by
  have hl : ¬ b.command.isLoop := fun h => by
    obtain ⟨times, h⟩ := Command.eq_loop_of_isLoop h
    exact hb times h
  have hstep : p.step settings now s
      = (s.perform settings now (.execute p.role b), some (p.enter (.opening rest))) := by
    rw [← execute_eq]
    simp only [step, hp, hgo, if_true]
  rw [turnDeeds_of_runnable settings now (congrArg Prod.snd hstep) rfl, hstep]
  simp only [stepDeeds, hp, hl, hgo, if_true]
  rfl

theorem turn_scene (p : Performer) (s : Scene) :
    (p.turn settings now s).1 = Scene.performAll settings now (p.turnDeeds settings now s) s := by
  fun_induction turn settings now p s with
  | case1 p s after h =>
    rw [turnDeeds_of_none settings now h]
    exact step_scene settings now p s
  | case2 p s after p' h hr ih =>
    rw [turnDeeds_of_runnable settings now h hr, Scene.performAll_append, ← step_scene]
    exact ih
  | case3 p s after p' h hr =>
    rw [turnDeeds_of_not_runnable settings now h hr]
    exact step_scene settings now p s

/-- Who goes on after a turn wakes within the step delay. -/
theorem wake_le_of_turn {p q : Performer} {s : Scene} (h : (p.turn settings now s).2 = some q)
    {l : Loop} {wake : Nat} (hq : q.phase = .resting l wake) :
    wake ≤ now + settings.stepDelay := by
  fun_induction turn settings now p s with
  | case1 p s after => cases h
  | case2 p s after p' hp' hrun ih => exact ih h
  | case3 p s after p' hp' hrun =>
    cases h
    have hc := p.step_case settings now s
    rw [show (p.step settings now s).2 = _ from hp'] at hc
    generalize p.stepDeeds settings now s = ds at hc
    cases hc with
    | loopBlock =>
      simp only [enter, Phase.resting.injEq] at hq
      exact Nat.le_of_eq hq.2.symm
    | enterLoop | openingBlock | wake => cases hq

/-- A performer does nothing but in its own part. -/
theorem role?_of_mem_turnDeeds {p : Performer} {s : Scene} {d : Deed}
    (hd : d ∈ p.turnDeeds settings now s) : d.role? = some p.role := by
  fun_induction turn settings now p s with
  | case1 p s after h =>
    rw [turnDeeds_of_none settings now h] at hd
    exact role?_of_mem_stepDeeds settings now hd
  | case2 p s after p' h hr ih =>
    rw [turnDeeds_of_runnable settings now h hr] at hd
    rcases List.mem_append.1 hd with hd | hd
    · exact role?_of_mem_stepDeeds settings now hd
    · rw [ih hd, role_of_step settings now h]
  | case3 p s after p' h hr =>
    rw [turnDeeds_of_not_runnable settings now h hr] at hd
    exact role?_of_mem_stepDeeds settings now hd

end Performer

namespace Show

/-- The deeds that end a run, if it has no performers left. -/
def finishDeeds (run : RunId) (performers : List Performer) : List Deed :=
  if performers.any (·.run = run) then [] else [.finish run]

theorem eq_of_mem_finishDeeds {run : RunId} {performers : List Performer} {d : Deed}
    (hd : d ∈ finishDeeds run performers) : d = .finish run := by
  unfold finishDeeds at hd
  split at hd
  · cases hd
  · exact List.mem_singleton.1 hd

theorem gone_of_mem_finishDeeds {run : RunId} {performers : List Performer} {d : Deed}
    (hd : d ∈ finishDeeds run performers) : ∀ p ∈ performers, p.run ≠ run := by
  unfold finishDeeds at hd
  split at hd
  · cases hd
  · rename_i hany
    exact fun p hp hrun => hany (List.any_eq_true.2 ⟨p, hp, by simpa using hrun⟩)

def alarmDeeds (s : Show) : List Deed :=
  .collect :: (s.world.alarms.schedule.takeDue now).1.map fun a => .ring a.1 a.2

section

variable {s : Show} {before after : List Performer} {p q : Performer}

theorem mem_of_around (h : s.performers = before.reverse ++ p :: after) : p ∈ s.performers :=
  h ▸ List.mem_append_right _ List.mem_cons_self

theorem mem_of_mem_around (h : s.performers = before.reverse ++ p :: after)
    (hq : q ∈ before.reverse ++ after) : q ∈ s.performers :=
  h ▸ List.perm_middle.mem_iff.2 (List.mem_cons_of_mem p hq)

end

/-- The deeds of the turn of a performer who stands among `others`. -/
def performerDeeds (p : Performer) (others : List Performer) (scene : Scene) : List Deed :=
  p.turnDeeds settings now scene ++
    if (p.turn settings now scene).2.isNone then finishDeeds p.run others else []

/-- In a turn a performer does its part, and may end its run. -/
theorem role?_of_mem_performerDeeds {p : Performer} {others : List Performer} {scene : Scene}
    {d : Deed} (hd : d ∈ performerDeeds settings now p others scene) :
    d.role? = some p.role ∨ d = .finish p.run := by
  rcases List.mem_append.1 hd with hd | hd
  · exact .inl (Performer.role?_of_mem_turnDeeds settings now hd)
  · split at hd
    · exact .inr (eq_of_mem_finishDeeds hd)
    · cases hd

theorem finishIfDone_eq (run : RunId) (s : Show) :
    finishIfDone run s
      = { s with scene := s.scene.performAll settings now (finishDeeds run s.performers) } := by
  unfold finishIfDone finishDeeds
  split
  · rfl
  · simp [world]

theorem ringAll_eq (due : List (AlarmId × Expiry)) (s : Scene) :
    ringAll settings now due s
      = s.performAll settings now (due.map fun a => .ring a.1 a.2) := by
  induction due generalizing s with
  | nil => rfl
  | cons a due ih => exact ih _

theorem alarmTurn_scene (s : Show) :
    (s.alarmTurn settings now).scene = s.scene.performAll settings now (s.alarmDeeds now) := by
  simp only [alarmTurn, alarmDeeds, ringAll_eq, Scene.performAll_cons]
  rw [Scene.perform]
  simp [World.perform, world]

theorem performerTurn_scene (before : List Performer) (p : Performer) (after : List Performer)
    (scene : Scene) :
    (performerTurn settings now before p after scene).scene
      = scene.performAll settings now
          (performerDeeds settings now p (before.reverse ++ after) scene) := by
  unfold performerTurn performerDeeds
  rw [Scene.performAll_append, ← Performer.turn_scene]
  split
  · rename_i h
    simp [h]
  · rename_i h
    simp [h, finishIfDone_eq settings now]

theorem exists_play? {s : Show} {run : RunId} {runs : RunBook}
    (h : s.world.runs.begin? = some (run, runs)) : ∃ s', s.play? = some (run, s') := by
  simp only [play?, h]
  exact ⟨_, rfl⟩

theorem play?_scene {s s' : Show} {run : RunId} (h : s.play? = some (run, s')) :
    s'.scene = s.scene.performAll settings now (.begin run :: finishDeeds run s'.performers) := by
  unfold play? at h
  split at h
  · cases h
  · rename_i runs hb
    cases h
    rw [finishIfDone_eq settings now, Scene.performAll_cons, Scene.perform_begin settings now hb]
    rfl

end Show

end SpriteCanvas
