import SpriteCanvas.Proofs.Draining
import SpriteCanvas.Proofs.Lifetimes
import SpriteCanvas.Proofs.Parts

/-!
# Stale performers

A performer whose sprite has a new life is stale for good.  When it wakes it ends at once: what it
began with it does not mark any more, and the one thing left to it is the drain of the waiting
checks that follows every step delay, which belongs to nobody (`Performer.turn_of_past`).  So its
last turn is that drain, or nothing at all (`Course.stale_turn`).
-/

namespace SpriteCanvas

/-! ## What is past stays past -/

namespace Scene

variable (settings : Settings) (now : Nat) {s : Scene} {id : SpriteId} {generation : Nat}

theorem past_run (errands : List Errand) (h : s.world.cast.Past id generation) :
    (s.run settings now errands).world.cast.Past id generation := by
  fun_induction run settings now errands s with
  | case1 s => exact h
  | case2 n errands s ih => exact ih h
  | case3 c errands s reply ih =>
    exact ih (h.ages (World.ages_perform settings now s.world (.answer c)))
  | case4 a errands s ih => exact ih h

theorem past_perform (d : Deed) (h : s.world.cast.Past id generation) :
    (s.perform settings now d).world.cast.Past id generation :=
  past_run settings now _ (h.ages (World.ages_perform settings now s.world d))

end Scene

/-! ## The last turn -/

namespace Performer

variable (settings : Settings) (now : Nat) {p : Performer} {s : Scene} {l : Loop} {wake : Nat}

theorem setLooping_of_past {w : World} {id : SpriteId} {generation : Nat}
    (h : w.cast.Past id generation) (looping : Bool) :
    w.setLooping id generation looping = w := by
  simp [World.setLooping, Cast.updateCurrent, h.not_current]

theorem leaveLoop_of_past (h : s.world.cast.Past p.id p.generation) : p.leaveLoop s = s := by
  rw [leaveLoop, setLooping_of_past h]

theorem not_mayGoOn_of_past {w : World} (h : w.cast.Past p.id p.generation) :
    ¬ p.mayGoOn w = true := by
  simp [mayGoOn, h.not_current]

theorem step_looping_of_past (hp : p.phase = .looping l)
    (h : s.world.cast.Past p.id p.generation) :
    p.step settings now s = (s, none) ∧ p.stepDeeds settings now s = p.exit := by
  have hgo := not_mayGoOn_of_past h
  rcases hl : l.next? with _ | ⟨b, l'⟩ <;>
    simp [step, stepDeeds, hp, hl, hgo, leaveLoop_of_past h]

theorem step_looping_of_mayGoOn {l' : Loop} {b : Block} (hp : p.phase = .looping l)
    (hl : l.next? = some (b, l')) (hgo : p.mayGoOn s.world = true)
    (hs : ¬ p.isStopped (s.perform settings now (.execute p.role b)).world = true) :
    p.step settings now s = (s.perform settings now (.execute p.role b),
      some (p.enter (.resting l' (now + settings.stepDelay)))) := by
  rw [← execute_eq] at hs ⊢
  simp only [step, hp, hl]
  rw [if_pos hgo, if_neg hs]

/-- A performer whose script begins with a loop marks its sprite, executes one block and rests. -/
theorem turn_into_loop {b b' : Block} {rest : Script} {times : UInt32} {marked : Scene}
    (hp : p.phase = .opening (b :: rest)) (hb : b.command = .loop times)
    (hl : Loop.next? ⟨Script.body rest, times.toNat, []⟩ = some (b', l))
    (hmarked : s.perform settings now (.mark p.role true) = marked)
    (hgo : p.mayGoOn marked.world = true)
    (hs : ¬ p.isStopped (marked.perform settings now (.execute p.role b')).world = true)
    (hdelay : 0 < settings.stepDelay) :
    p.turn settings now s = (marked.perform settings now (.execute p.role b'),
      some (p.enter (.resting l (now + settings.stepDelay)))) := by
  have hmark : p.step settings now s
      = (marked, some (p.enter (.looping ⟨Script.body rest, times.toNat, []⟩))) := by
    obtain ⟨-, hscene⟩ := step_eq settings now p s
    simp only [step, stepDeeds, hp, hb, Command.isLoop, if_true] at hscene ⊢
    rw [hscene, ← hmarked]
    rfl
  have hblock := step_looping_of_mayGoOn settings now
    (p := p.enter (.looping ⟨Script.body rest, times.toNat, []⟩)) rfl hl hgo hs
  have hrest : ¬ (p.enter (.resting l (now + settings.stepDelay))).isRunnable now
      (marked.perform settings now (.execute p.role b')).world = true := by
    simp only [isRunnable, enter, Bool.or_eq_true, decide_eq_true_eq, not_or]
    exact ⟨by omega, hs⟩
  have hwakes : (p.enter (.looping ⟨Script.body rest, times.toNat, []⟩)).isRunnable now
      marked.world = true := rfl
  rw [turn_eq, hmark]
  dsimp only
  rw [if_pos hwakes, turn_eq, hblock]
  exact if_neg hrest

/-- A stale performer ends when it wakes, after a drain unless its run was stopped. -/
theorem turn_of_past (hp : p.phase = .resting l wake)
    (h : s.world.cast.Past p.id p.generation) :
    p.turn settings now s
        = (if p.isStopped s.world then s else s.perform settings now (.drain p.role), none)
      ∧ p.turnDeeds settings now s
        = (if p.isStopped s.world then [] else [.drain p.role]) ++ p.exit := by
  by_cases hs : p.isStopped s.world
  · have hstep : p.step settings now s = (s, none) := by
      simp only [step, hp, if_pos hs, leaveLoop_of_past h]
    rw [turn_eq, turnDeeds_of_none settings now (congrArg Prod.snd hstep), hstep]
    simp [stepDeeds, hp, hs]
  · have hstep : p.step settings now s
        = (s.perform settings now (.drain p.role), some (p.enter (.looping l))) := by
      simp only [step, hp, if_neg hs]
      rfl
    have hpast := Scene.past_perform settings now (.drain p.role) h
    obtain ⟨hlast, hexit⟩ := step_looping_of_past settings now
      (p := p.enter (.looping l)) rfl hpast
    have hrun : (p.enter (.looping l)).isRunnable now
        (s.perform settings now (.drain p.role)).world = true := rfl
    rw [turn_eq, turnDeeds_of_runnable settings now (congrArg Prod.snd hstep) (hstep ▸ hrun), hstep]
    simp only [hrun, if_true, if_neg hs]
    rw [turn_eq, turnDeeds_of_none settings now (congrArg Prod.snd hlast), hlast, hexit]
    simp [stepDeeds, hp, hs, exit]

end Performer

/-! ## What the host hears of it -/

namespace Scene

variable (settings : Settings) (now : Nat) {s : Scene}

/-- Nobody hears of a performer that ends, nor of a run that does. -/
theorem told_log_exit (p : Performer) (others : List Performer) (s : Scene) :
    told (s.log settings now (p.exit ++ Show.finishDeeds p.run others)) = [] := by
  unfold Show.finishDeeds
  split <;> simp [Performer.exit, log, World.perform, runLog, told, Entry.notice?]

/-- A stale performer that ends leaves the scene as it is, but for its run, which may end. -/
theorem performAll_exit {p : Performer} (h : s.world.cast.Past p.id p.generation)
    (others : List Performer) :
    ∃ runs, s.performAll settings now (p.exit ++ Show.finishDeeds p.run others)
      = { s with world := { s.world with runs := runs } } := by
  rw [performAll_append, ← Performer.leaveLoop_eq, Performer.leaveLoop_of_past h]
  unfold Show.finishDeeds
  split
  · exact ⟨s.world.runs, rfl⟩
  · exact ⟨_, perform_finish settings now p.run s⟩

/-- A drain while nobody waits is nothing that anybody hears of. -/
theorem drain_of_nobody (r : Role) (h : s.world.checks.waiting = []) :
    s.perform settings now (.drain r) = s ∧ told (s.log settings now [.drain r]) = [] := by
  have hdrain : s.world.perform settings now (.drain r) = (s.world, []) := by
    rw [World.perform, World.drain_nil settings now h]
  constructor
  · rw [perform, hdrain]
    exact deliver_nil settings now s
  · simp [log, hdrain, runLog, told, Entry.notice?]

end Scene

namespace Course

/-- The sprites, the waiting checks and the alarms are the same, and the host has heard the same. -/
structure Alike (x y : Course) : Prop where
  cast : y.engine.world.cast = x.engine.world.cast
  checks : y.engine.world.checks = x.engine.world.checks
  alarms : y.engine.world.alarms = x.engine.world.alarms
  audience : y.engine.scene.audience = x.engine.scene.audience
  told : told y.chronicle = told x.chronicle

/-- Runs are none of what makes two courses alike. -/
theorem alike_of_runs {x y : Course} {runs : RunBook}
    (hscene : y.engine.scene
      = { x.engine.scene with world := { x.engine.scene.world with runs := runs } })
    (htold : told y.chronicle = told x.chronicle) : x.Alike y where
  cast := (congrArg (fun s : Scene => s.world.cast) hscene :)
  checks := (congrArg (fun s : Scene => s.world.checks) hscene :)
  alarms := (congrArg (fun s : Scene => s.world.alarms) hscene :)
  audience := (congrArg Scene.audience hscene :)
  told := htold

variable (settings : Settings) {x : Course} {place : Nat} {p : Performer} {l : Loop} {wake : Nat}

/-- The generation of a performer is past if its sprite was given a new life since its run began. -/
theorem past_of_recast (listening : Listening) (reactions : List Reaction) (ms : List Move)
    (hx : (start listening reactions).run settings ms = x) (hp : p ∈ x.engine.performers)
    {pre post : List Entry} {t : Nat} {c : Call}
    (hchronicle : x.chronicle = pre ++ ⟨t, .answer c⟩ :: post) (hc : c.recast? = some p.id)
    (hrun : p.run < (Moment.start.after settings pre).world.runs.begun) :
    x.engine.world.cast.Past p.id p.generation := by
  have hagrees := agrees_run settings listening reactions ms
  have hlaw := lawful_run settings listening reactions ms
  rw [hx] at hagrees hlaw
  have htodo := hagrees.cues.todo_of_mem p hp
  rw [← hagrees.world]
  rw [hchronicle] at hlaw htodo ⊢
  obtain ⟨hpre, -, ha, hpost⟩ := (Moment.lawful_append settings _ _ _).1 hlaw
  have hsuperseded : (Moment.start.after settings (pre ++ ⟨t, .answer c⟩ :: post)).Superseded
      p.role := by
    rw [Moment.after_append, Moment.after_cons]
    exact (hpre.dated.superseded (r := p.role) ha hc hrun).after hpost
  exact hsuperseded.past (by rw [htodo]; exact nofun)

theorem engine_performer (hp : x.runnable? place = some p) :
    (x.move settings (.performer place)).engine = Show.performerTurn settings x.clock
      (x.around place).1 p (x.around place).2 x.engine.scene := by
  show x.next settings (.performer place) = _
  simp only [next, hp]

/-- In its last turn a stale performer does no more than the drain that is due, if any. -/
theorem move_of_past (hp : x.runnable? place = some p)
    (hrest : p.phase = .resting l wake) (hpast : x.engine.world.cast.Past p.id p.generation)
    {ds : List Deed}
    (hds : ds = if p.isStopped x.engine.scene.world then [] else [.drain p.role]) :
    (x.move settings (.performer place)).engine.performers = x.engine.performers.eraseIdx place
      ∧ (∃ runs, (x.move settings (.performer place)).engine.scene
        = { x.engine.scene.performAll settings x.clock ds with
            world := { (x.engine.scene.performAll settings x.clock ds).world with runs := runs } })
      ∧ told (x.move settings (.performer place)).chronicle
        = told x.chronicle ++ told (x.engine.scene.log settings x.clock ds) := by
  obtain ⟨hturn, hdeeds⟩ := Performer.turn_of_past settings x.clock hrest hpast
  generalize hothers : (x.around place).1.reverse ++ (x.around place).2 = others
  have hall : x.deeds settings (.performer place)
      = ds ++ (p.exit ++ Show.finishDeeds p.run others) := by
    simp only [deeds, hp, Show.performerDeeds, hothers, hturn, hdeeds, hds]
    simp
  have hpast' : (x.engine.scene.performAll settings x.clock ds).world.cast.Past p.id
      p.generation := by
    rw [hds]
    split
    · exact hpast
    · exact Scene.past_perform settings x.clock _ hpast
  refine ⟨?_, ?_, ?_⟩
  · rw [engine_performer settings hp, Show.performers_performerTurn, hturn,
      List.eraseIdx_eq_take_drop_succ, around]
    simp
  · obtain ⟨runs, hruns⟩ := Scene.performAll_exit settings x.clock hpast' others
    exact ⟨runs, by rw [move_scene, hall, Scene.performAll_append, hruns]⟩
  · show told (x.chronicle ++ x.engine.scene.log settings x.clock _) = _
    rw [hall, told_append, Scene.log_append, told_append, Scene.told_log_exit, List.append_nil]

/-- Let a performer be resting in a loop, and let its sprite have been taken out, registered again
or given another script since its run began.  The turn in which it wakes ends it.  If its run was
stopped, or if no check waits, the turn changes no sprite and no check and the host hears nothing.
Else it comes to what a drain of the waiting checks comes to that the host asks for at that moment,
and to nothing more. -/
theorem stale_turn (listening : Listening) (reactions : List Reaction) (ms : List Move)
    (hx : (start listening reactions).run settings ms = x) (hp : x.runnable? place = some p)
    (hrest : p.phase = .resting l wake) {pre post : List Entry} {t : Nat} {c : Call}
    (hchronicle : x.chronicle = pre ++ ⟨t, .answer c⟩ :: post) (hc : c.recast? = some p.id)
    (hrun : p.run < (Moment.start.after settings pre).world.runs.begun) :
    (x.move settings (.performer place)).engine.performers = x.engine.performers.eraseIdx place
      ∧ (p.isStopped x.engine.world = true ∨ x.engine.world.checks.waiting = [] →
        x.Alike (x.move settings (.performer place)))
      ∧ (p.isStopped x.engine.world = false →
        (x.move settings (.call .drainChecks)).Alike (x.move settings (.performer place))) := by
  have hpast := past_of_recast settings listening reactions ms hx
    (Show.mem_of_around (performers_around hp)) hchronicle hc hrun
  obtain ⟨hperformers, ⟨runs, hscene⟩, htold⟩ := move_of_past settings hp hrest hpast rfl
  refine ⟨hperformers, fun h => ?_, fun hs => ?_⟩
  · have hnothing : x.engine.scene.performAll settings x.clock
          (if p.isStopped x.engine.scene.world then [] else [.drain p.role]) = x.engine.scene
        ∧ told (x.engine.scene.log settings x.clock
          (if p.isStopped x.engine.scene.world then [] else [.drain p.role])) = [] := by
      split
      · exact ⟨rfl, rfl⟩
      · rename_i hs
        exact Scene.drain_of_nobody settings x.clock p.role (h.resolve_left hs)
    rw [hnothing.1] at hscene
    rw [hnothing.2, List.append_nil] at htold
    exact alike_of_runs hscene htold
  · have hgoing : ¬ p.isStopped x.engine.scene.world = true := Bool.eq_false_iff.1 hs
    rw [if_neg hgoing] at hscene htold
    have hasked : told (x.move settings (.call .drainChecks)).chronicle
        = told x.chronicle ++ told (x.engine.scene.log settings x.clock [.drain p.role]) :=
      told_append ..
    exact alike_of_runs hscene (htold.trans hasked.symm)

/-- The turn of a performer who is alone and whose script begins with a loop. -/
theorem performer_into_loop {b b' : Block} {rest : Script} {times : UInt32} {w v : World}
    (h : x.engine.scene.audience.waiting = []) (hps : x.engine.performers = [p])
    (hp : p.phase = .opening (b :: rest)) (hb : b.command = .loop times)
    (hl : Loop.next? ⟨Script.body rest, times.toNat, []⟩ = some (b', l))
    (hw : (x.engine.world.perform settings x.clock (.mark p.role true)).1 = w)
    (hv : (w.perform settings x.clock (.execute p.role b')).1 = v)
    (hgo : p.mayGoOn w = true) (hs : ¬ p.isStopped v = true) (hdelay : 0 < settings.stepDelay) :
    (x.move settings (.performer 0)).engine.performers
        = [p.enter (.resting l (x.clock + settings.stepDelay))]
      ∧ (x.move settings (.performer 0)).engine.world = v := by
  have hr : x.runnable? 0 = some p := by
    simp [runnable?, hps, Performer.isRunnable, hp]
  obtain ⟨hmark, hquiet⟩ := Scene.perform_quiet settings x.clock h (.mark p.role true)
  obtain ⟨hblock, -⟩ := Scene.perform_quiet settings x.clock hquiet (.execute p.role b')
  have hmarked := hmark.trans hw
  rw [hmarked, hv] at hblock
  have hturn := Performer.turn_into_loop settings x.clock hp hb hl rfl
    (hmarked ▸ hgo) (hblock ▸ hs) hdelay
  rw [engine_performer settings hr, Show.performerTurn, hturn, around, hps]
  exact ⟨rfl, hblock⟩

/-- A sprite that turns in a loop is registered. -/
def spin : Call := .register "a" .center [⟨"1", .loop 2⟩, ⟨"2", .turn 90⟩] "t"

/-- The performer of its script, after one turn. -/
def spinner : Performer :=
  ⟨"a", 1, 0, .resting ⟨[⟨"2", .turn 90⟩], 1, []⟩ Settings.default.stepDelay⟩

/-- The world that it leaves for its rest. -/
def spinnerWorld : World :=
  let w := { (World.initial.reply .default 0 spin).world with runs := ⟨1, some 0, [], []⟩ }
  let w := (w.perform .default 0 (.mark spinner.role true)).1
  (w.perform .default 0 (.execute spinner.role ⟨"2", .turn 90⟩)).1

theorem performers_spin :
    ((start .ignoring []).run .default [.call spin, .play, .performer 0]).engine.performers
        = [spinner]
      ∧ ((start .ignoring []).run .default [.call spin, .play, .performer 0]).engine.world
        = spinnerWorld := by
  obtain ⟨a, log, hspin, hquiet⟩ : ∃ a log, (start .ignoring []).move .default (.call spin)
      = ⟨0, ⟨⟨(World.initial.reply .default 0 spin).world, a⟩, []⟩, log⟩ ∧ a.waiting = [] := by
    obtain ⟨hworld, hquiet⟩ := Scene.perform_quiet .default 0
      (s := (start .ignoring []).engine.scene) rfl (.answer spin)
    refine ⟨_, ((start .ignoring []).move .default (.call spin)).chronicle, ?_, hquiet⟩
    rw [show (World.initial.reply .default 0 spin).world = _ from hworld.symm]
    rfl
  obtain ⟨y, hy⟩ : ∃ y, y = (start .ignoring []).run .default [.call spin, .play] := ⟨_, rfl⟩
  have hplay : y = (Course.mk 0 ⟨⟨(World.initial.reply .default 0 spin).world, a⟩, []⟩ log).move
      .default .play := by
    rw [hy, ← hspin]
    rfl
  have hperformers : y.engine.performers
      = [spinner.enter (.opening (⟨"1", .loop 2⟩ :: [⟨"2", .turn 90⟩]))] := by
    rw [hplay]
    rfl
  have hclock : y.clock = 0 := by
    rw [hplay]
    rfl
  have hworld : y.engine.world
      = { (World.initial.reply .default 0 spin).world with runs := ⟨1, some 0, [], []⟩ } := by
    rw [hplay]
    rfl
  have hfirst : Loop.next? ⟨Script.body [⟨"2", .turn 90⟩], (2 : UInt32).toNat, []⟩
      = some (⟨"2", .turn 90⟩, ⟨[⟨"2", .turn 90⟩], 1, []⟩) := rfl
  have hturn := performer_into_loop .default (v := spinnerWorld)
    (hy ▸ quiet_run .default rfl _) hperformers rfl rfl hfirst rfl
    (by rw [hworld, hclock]; rfl) (by rw [hworld, hclock]; rfl)
    (Bool.eq_false_iff.1 rfl) (by decide)
  rw [hclock, Nat.zero_add] at hturn
  have hrun : (start .ignoring []).run .default [.call spin, .play, .performer 0]
      = y.move .default (.performer 0) := by
    rw [hy]
    rfl
  rw [hrun]
  exact hturn

/-- It is given another script while it rests, and one that stands on it waits for a check. -/
def overtake : List Call :=
  [.setScript "a" [], .register "b" .center [] "u", .queueCheck "b"]

def overtaken : Course :=
  (start .ignoring []).run .default
    ([.call spin, .play, .performer 0]
      ++ (overtake.map .call ++ [.pass Settings.default.stepDelay]))

def overtakenWorld : World :=
  overtake.foldl (fun w c => (w.reply .default 0 c).world) spinnerWorld

theorem overtaken_eq :
    overtaken.clock = Settings.default.stepDelay
      ∧ overtaken.engine.performers = [spinner]
      ∧ overtaken.engine.world = overtakenWorld
      ∧ ∃ pre post, overtaken.chronicle = pre ++ ⟨0, .answer (.setScript "a" [])⟩ :: post
        ∧ spinner.run < (Moment.start.after .default pre).world.runs.begun := by
  obtain ⟨hperformers, hworld⟩ := performers_spin
  have hagrees := agrees_run .default .ignoring [] [.call spin, .play, .performer 0]
  have hrun : overtaken = ((start .ignoring []).run .default [.call spin, .play, .performer 0]).run
      .default (overtake.map .call ++ [.pass Settings.default.stepDelay]) := run_append ..
  have hquiet := quiet_run .default (x := start .ignoring []) rfl [.call spin, .play, .performer 0]
  have hclock : ((start .ignoring []).run .default [.call spin, .play, .performer 0]).clock = 0 :=
    rfl
  generalize (start .ignoring []).run .default [.call spin, .play, .performer 0] = x at *
  obtain ⟨hcalls, -⟩ := calls_quiet .default overtake hquiet
  rw [hclock, hworld] at hcalls
  obtain ⟨ns, hset⟩ := chronicle_call_quiet .default hquiet (.setScript "a" [])
  obtain ⟨log, hlog⟩ := chronicle_run .default (x.move .default (.call (.setScript "a" [])))
    [.call (.register "b" .center [] "u"), .call (.queueCheck "b"),
      .pass Settings.default.stepDelay]
  rw [hset, hclock, List.append_assoc] at hlog
  rw [hrun]
  refine ⟨?_, hperformers, ?_, _, _, hlog, ?_⟩
  · show x.clock + Settings.default.stepDelay = _
    rw [hclock, Nat.zero_add]
  · rw [run_append]
    exact hcalls
  · rw [hagrees.world, hworld]
    exact Nat.zero_lt_one

theorem runnable?_overtaken : overtaken.runnable? 0 = some spinner := by
  obtain ⟨hclock, hperformers, -⟩ := overtaken_eq
  simp [runnable?, hperformers, Performer.isRunnable, spinner, hclock]

/-- The last turn of a stale performer need not be inert: it makes the check that waits, and the
host hears that `b` was struck. -/
theorem struck_by_stale_turn : ∃ y pre post,
    overtaken.runnable? 0 = some spinner
      ∧ overtaken.chronicle = pre ++ ⟨0, .answer (.setScript spinner.id [])⟩ :: post
      ∧ spinner.run < (Moment.start.after .default pre).world.runs.begun
      ∧ overtaken.move .default (.performer 0) = y
      ∧ overtaken.engine.world.checks.waiting = ["b"] ∧ y.engine.world.checks.waiting = []
      ∧ (overtaken.engine.world.cast.find? "b").map (·.figure.facing) = some .forward
      ∧ (y.engine.world.cast.find? "b").map (·.figure.facing) = some .reverse
      ∧ (told overtaken.chronicle).length < (told y.chronicle).length := by
  obtain ⟨hclock, -, hworld, pre, post, hchronicle, hrun⟩ := overtaken_eq
  have hp := runnable?_overtaken
  have hpast := past_of_recast .default .ignoring [] _ rfl
    (Show.mem_of_around (performers_around hp)) hchronicle rfl hrun
  have hs : ¬ spinner.isStopped overtaken.engine.scene.world = true := by
    rw [show overtaken.engine.scene.world = _ from hworld]
    exact Bool.eq_false_iff.1 rfl
  have hquiet : overtaken.engine.scene.audience.waiting = [] := quiet_run .default rfl _
  obtain ⟨-, ⟨runs, hscene⟩, htold⟩ := move_of_past .default hp rfl hpast (if_neg hs).symm
  have hdrain := Scene.performAll_quiet .default overtaken.clock [.drain spinner.role] hquiet
  rw [show overtaken.engine.scene.world = _ from hworld, hclock] at hdrain
  have hchecks := congrArg (fun s : Scene => s.world.checks.waiting) hscene
  have hcast := congrArg (fun s : Scene => (s.world.cast.find? "b").map (·.figure.facing)) hscene
  dsimp only at hchecks hcast
  rw [hclock, hdrain] at hchecks hcast
  refine ⟨_, pre, post, hp, hchronicle, hrun, rfl, ?_, hchecks.trans ?_, ?_, hcast.trans ?_, ?_⟩
  · rw [hworld]
    rfl
  · rfl
  · rw [hworld]
    rfl
  · decide +kernel
  · have hheard : told (overtaken.engine.scene.log .default overtaken.clock [.drain spinner.role])
        = (overtakenWorld.perform .default Settings.default.stepDelay (.drain spinner.role)).2 := by
      rw [Scene.log_singleton_quiet .default overtaken.clock hquiet,
        show overtaken.engine.scene.world = _ from hworld, hclock]
      exact told_tells _ _
    rw [htold, hheard, List.length_append]
    exact Nat.lt_add_of_pos_right (by decide +kernel)

/-- All that it does is the drain that the host could have asked for. -/
theorem stale_turn_of_spinner : ∃ pre post,
    overtaken.runnable? 0 = some spinner
      ∧ overtaken.chronicle = pre ++ ⟨0, .answer (.setScript spinner.id [])⟩ :: post
      ∧ spinner.run < (Moment.start.after .default pre).world.runs.begun
      ∧ (overtaken.move .default (.performer 0)).engine.performers = []
      ∧ (overtaken.move .default (.call .drainChecks)).Alike
        (overtaken.move .default (.performer 0)) := by
  obtain ⟨-, hperformers, hworld, pre, post, hchronicle, hrun⟩ := overtaken_eq
  have hp := runnable?_overtaken
  obtain ⟨hleft, -, halike⟩ := stale_turn .default (x := overtaken) .ignoring [] _ rfl
    hp rfl hchronicle rfl hrun
  rw [hperformers] at hleft
  refine ⟨pre, post, hp, hchronicle, hrun, hleft, halike ?_⟩
  rw [hworld]
  rfl

end Course

end SpriteCanvas
