import SpriteCanvas.Proofs.Moment

/-!
# A performer's turn

A performer at a phase still has `Phase.todo` to run.  Each step takes what it runs from the front
of that (`brings_step`), and so does a turn (`brings_turn`); every block is run while the run is
live and the sprite is the one that went into it.
-/

namespace SpriteCanvas

/-! ## What is left to run -/

/-- The blocks that are left in a loop. -/
def Loop.todo (l : Loop) : Script := l.rest ++ (List.replicate l.passes l.body).flatten

theorem Loop.todo_of_next?_none {l : Loop} (h : l.next? = none) : l.todo = [] := by
  obtain ⟨body, passes, rest⟩ := l
  unfold next? at h
  split at h
  · cases h
  · rename_i hr
    rcases passes with _ | passes
    · simpa [todo] using hr
    · rcases body with _ | ⟨b, body⟩
      · simpa [todo] using hr
      · cases h

theorem Loop.todo_of_next?_some {l l' : Loop} {b : Block} (h : l.next? = some (b, l')) :
    l.todo = b :: l'.todo := by
  obtain ⟨body, passes, rest⟩ := l
  unfold next? at h
  split at h
  · rename_i hr
    cases h
    simp_all [todo]
  · rename_i hr
    rcases passes with _ | passes
    · cases h
    · rcases body with _ | ⟨c, body⟩
      · cases h
      · cases h
        simp_all [todo, List.replicate_succ]

/-- The blocks that are left from a phase on. -/
def Phase.todo : Phase → Script
  | opening rest => rest.unrolled
  | looping l | resting l _ => l.todo

namespace RunBook

/-- A run that is live, or was stopped. -/
def Holds (b : RunBook) (run : RunId) : Prop := b.live = some run ∨ run ∈ b.stopped

/-- As many runs have begun, and the same of them are live or were stopped. -/
def Keeps (b b' : RunBook) : Prop := b'.begun = b.begun ∧ ∀ run, b'.Holds run ↔ b.Holds run

/-- Only runs that have begun are live or were stopped. -/
def Counted (b : RunBook) : Prop := ∀ run, b.Holds run → run < b.begun

theorem Keeps.refl (b : RunBook) : b.Keeps b := ⟨rfl, fun _ => .rfl⟩

theorem Keeps.trans {b₁ b₂ b₃ : RunBook} (h : b₁.Keeps b₂) (h' : b₂.Keeps b₃) : b₁.Keeps b₃ :=
  ⟨h'.1.trans h.1, fun run => (h'.2 run).trans (h.2 run)⟩

theorem keeps_stop (b : RunBook) : b.Keeps b.stop := by
  unfold stop
  split
  · rename_i r hr
    refine ⟨rfl, fun run => ?_⟩
    simp [Holds, hr, eq_comm]
  · exact .refl b

theorem keeps_perform_answer (b : RunBook) (c : Call) : b.Keeps (b.perform (.answer c)) := by
  cases c with
  | stop => exact keeps_stop b
  | _ => exact .refl b

/-- Performers leave the runs alone. -/
theorem perform_of_role? {b : RunBook} {d : Deed} {r : Role} (h : d.role? = some r) :
    b.perform d = b := by
  cases d with
  | answer c => cases h
  | begin run => cases h
  | finish run => cases h
  | _ => rfl

theorem Holds.live {b : RunBook} {run : RunId} (h : b.Holds run) (hs : b.isStopped run = false) :
    b.live = some run := by
  rcases h with h | h
  · exact h
  · simp [isStopped, h] at hs

theorem holds_finish {b : RunBook} {run r : RunId} (h : b.Holds r) (hne : r ≠ run) :
    (b.finish run).Holds r := by
  rcases h with h | h
  · left
    simp [finish, h, hne]
  · exact .inr h

theorem holds_of_finish {b : RunBook} {run r : RunId} (h : (b.finish run).Holds r) :
    b.Holds r := by
  rcases h with h | h
  · left
    simp only [finish] at h
    split at h
    · cases h
    · exact h
  · exact .inr h

theorem live_of_begin? {b b' : RunBook} {run : RunId} (h : b.begin? = some (run, b')) :
    b.live = none := by
  unfold begin? at h
  split at h
  · cases h
  · assumption

theorem begun_of_begin? {b b' : RunBook} {run : RunId} (h : b.begin? = some (run, b')) :
    run = b.begun := by
  rw [begin?, live_of_begin? h] at h
  cases h
  rfl

theorem lt_begun_of_begin? {b b' : RunBook} {run : RunId} (h : b.begin? = some (run, b')) :
    run < b'.begun := by
  rw [begin?, live_of_begin? h] at h
  cases h
  exact Nat.lt_succ_self _

theorem Counted.keeps {b b' : RunBook} (h : b.Counted) (hb : b.Keeps b') : b'.Counted := by
  intro run hr
  rw [hb.1]
  exact h run ((hb.2 run).1 hr)

theorem Counted.begin? {b b' : RunBook} {run : RunId} (h : b.Counted)
    (hb : b.begin? = some (run, b')) : b'.Counted := by
  rw [RunBook.begin?, live_of_begin? hb] at hb
  cases hb
  rintro r (hr | hr)
  · cases hr
    exact Nat.lt_succ_self _
  · exact Nat.lt_succ_of_lt (h r (.inr hr))

theorem Counted.finish {b : RunBook} (h : b.Counted) (run : RunId) : (b.finish run).Counted :=
  fun r hr => h r (holds_of_finish hr)

theorem Counted.perform {b : RunBook} (h : b.Counted) : ∀ d, (b.perform d).Counted
  | .answer c => h.keeps (keeps_perform_answer b c)
  | .begin _ => by
    simp only [RunBook.perform]
    rcases hb : b.begin? with _ | ⟨run, b'⟩
    · exact h
    · exact h.begin? hb
  | .finish run => h.finish run
  | .tell _ | .execute _ _ | .mark _ _ | .drain _ | .leave _ | .collect | .ring _ _ => h

theorem begun_le_perform (b : RunBook) (d : Deed) : b.begun ≤ (b.perform d).begun := by
  rcases b.perform_cases d with h | ⟨-, h⟩ | ⟨-, -, h⟩ | ⟨run, -, h⟩
  · exact Nat.le_of_eq (congrArg begun h.symm)
  · exact Nat.le_of_eq (by rw [h, begun_stop])
  · rw [h]
    exact Nat.le_succ b.begun
  · exact Nat.le_of_eq (by rw [h]; rfl)

end RunBook

section Keeps

variable (settings : Settings) (now : Nat)

theorem Scene.keeps_run (errands : List Errand) (s : Scene) :
    s.world.runs.Keeps (s.run settings now errands).world.runs := by
  fun_induction Scene.run settings now errands s with
  | case1 s => exact .refl _
  | case2 n errands s ih => exact ih
  | case3 c errands s reply =>
    rename_i ih
    refine RunBook.Keeps.trans ?_ ih
    rw [World.reply_runs]
    exact RunBook.keeps_perform_answer _ c
  | case4 a errands s ih => exact ih

theorem Scene.keeps_perform {d : Deed} (s : Scene)
    (h : s.world.runs.Keeps (s.world.runs.perform d)) :
    s.world.runs.Keeps (s.perform settings now d).world.runs := by
  rw [← World.perform_runs settings now] at h
  exact h.trans (Scene.keeps_run settings now _ _)

theorem Scene.keeps_performAll (ds : List Deed)
    (h : ∀ d ∈ ds, ∀ b : RunBook, b.Keeps (b.perform d)) (s : Scene) :
    s.world.runs.Keeps (s.performAll settings now ds).world.runs := by
  induction ds generalizing s with
  | nil => exact .refl _
  | cons d ds ih =>
    exact (Scene.keeps_perform settings now s (h d List.mem_cons_self _)).trans
      (ih (fun e he => h e (List.mem_cons_of_mem d he)) _)

theorem Performer.keeps_step (p : Performer) (s : Scene) :
    s.world.runs.Keeps (p.step settings now s).1.world.runs := by
  rw [p.step_scene]
  refine Scene.keeps_performAll settings now _ (fun d hd b => ?_) s
  rw [RunBook.perform_of_role? (p.role?_of_mem_stepDeeds settings now hd)]
  exact .refl b

end Keeps

/-! ## A performer's turn -/

namespace Performer

variable {settings : Settings} {now : Nat} {m : Moment} {p : Performer} {s : Scene}

theorem allows_execute {b : Block} {rest : Script} (hw : m.world = s.world)
    (hr : s.world.runs.Holds p.run) (hgo : p.mayGoOn s.world)
    (ht : m.todo p.role = some (b :: rest)) : m.Allows (.execute p.role b) := by
  simp only [mayGoOn, isStopped, Bool.and_eq_true, Bool.not_eq_true'] at hgo
  rw [← hw] at hr hgo
  exact ⟨hr.live hgo.1, hgo.2, rest, ht⟩

theorem stopped_or_not_current {w : World} (hgo : ¬ p.mayGoOn w) :
    w.runs.isStopped p.run = true ∨ w.cast.isCurrent p.id p.generation = false := by
  simpa only [mayGoOn, isStopped, Bool.and_eq_true, Bool.not_eq_true', not_and_or,
    Bool.not_eq_false, Bool.not_eq_true] using hgo

theorem brings_execute {b : Block} {rest : Script} (hw : m.world = s.world) (hc : m.clock ≤ now)
    (hr : s.world.runs.Holds p.run) (hgo : p.mayGoOn s.world)
    (ht : m.todo p.role = some (b :: rest)) :
    m.Brings settings now (s.log settings now [.execute p.role b])
      (s.perform settings now (.execute p.role b)).world m.ringing
      (Function.update m.todo p.role (some rest)) := by
  have htodo : m.todoAfter (.execute p.role b) = Function.update m.todo p.role (some rest) := by
    rw [Moment.todoAfter, ht]
    rfl
  rw [← htodo]
  exact Moment.brings_log_singleton hw hc (allows_execute hw hr hgo ht)

/-- A performer ends in a loop at the end of it, or if it may not go on. -/
theorem brings_exit (p : Performer) (settings : Settings) {script : Script}
    (hw : m.world = s.world) (hc : m.clock ≤ now) (ht : m.todo p.role = some script)
    (hq : script = [] ∨ ¬ p.mayGoOn s.world) :
    m.Brings settings now (s.log settings now p.exit) (s.performAll settings now p.exit).world
      m.ringing (Function.update m.todo p.role none) := by
  refine Moment.brings_log_cons hw hc ⟨script, ht⟩ fun n hc hn hr hn' => ?_
  have hn' : n.todo = m.todo := hn'
  have hr : n.ringing = m.ringing := hr
  rw [← hn', ← hr]
  refine Moment.brings_log_singleton hn hc ⟨script, hn' ▸ ht, hq.imp_right fun hgo => ?_⟩
  have hr := World.perform_redrawn settings now s.world (d := .mark p.role false) rfl
  have hp := hr.part?_eq p.id
  rw [hn, Scene.perform_mark]
  refine (stopped_or_not_current hgo).imp (fun h => h) fun h => ?_
  rw [Cast.isCurrent_eq] at h ⊢
  exact (congrArg _ hp).trans h

/-- A step takes what it runs from the front of what its part has to run. -/
theorem brings_step {ds : List Deed} {next : Option Performer}
    (hstep : StepCase settings now p s ds next) (hw : m.world = s.world) (hc : m.clock ≤ now)
    (hr : s.world.runs.Holds p.run) (ht : m.todo p.role = some p.phase.todo) :
    m.Brings settings now (s.log settings now ds) (s.performAll settings now ds).world m.ringing
      (Function.update m.todo p.role (next.map (·.phase.todo))) := by
  have hidle : ∀ {script}, m.todo p.role = some script →
      m.todo = Function.update m.todo p.role (some script) := by
    intro script h
    rw [← h, Function.update_eq_self]
  cases hstep with
  | done hp =>
    simp only [hp, Phase.todo] at ht
    exact Moment.brings_log_singleton hw hc ⟨_, ht, .inl rfl⟩
  | @enterLoop b rest times hp hb =>
    simp only [hp, Phase.todo] at ht
    have hl : Phase.todo (.looping ⟨Script.body rest, times.toNat, []⟩)
        = Script.unrolled (b :: rest) := (Script.unrolled_cons_of_loop hb rest).symm
    simp only [Option.map_some, enter, hl]
    rw [← hidle ht]
    exact Moment.brings_log_singleton hw hc ⟨_, ht⟩
  | @openingBlock b rest hp hb hgo =>
    simp only [hp, Phase.todo, Script.unrolled_cons_of_not_loop hb] at ht
    exact brings_execute hw hc hr hgo ht
  | @openingQuit b rest hp hb hgo =>
    refine Moment.brings_log_singleton hw hc ⟨_, ht, .inr ?_⟩
    exact stopped_or_not_current (hw ▸ hgo)
  | loopEnd hp hl =>
    simp only [hp, Phase.todo, Loop.todo_of_next?_none hl] at ht
    exact p.brings_exit settings hw hc ht (.inl rfl)
  | loopBlock hp hl hgo hs =>
    simp only [hp, Phase.todo, Loop.todo_of_next?_some hl] at ht
    exact brings_execute hw hc hr hgo ht
  | @loopStopped l l' b hp hl hgo hs =>
    simp only [hp, Phase.todo, Loop.todo_of_next?_some hl] at ht
    refine Moment.brings_log_cons hw hc (allows_execute hw hr hgo ht) fun n hc hn hr hn' => ?_
    have hn' : n.todo = Function.update m.todo p.role (some l'.todo) := by
      rw [hn', Moment.todoAfter, ht]
      rfl
    have h := p.brings_exit settings hn hc (by rw [hn', Function.update_self])
      (.inr fun h => by simp [mayGoOn, hs] at h)
    rw [hr, hn', Function.update_idem] at h
    exact h
  | loopQuit hp hl hgo => exact p.brings_exit settings hw hc ht (.inr hgo)
  | @wake l t hp hs =>
    simp only [hp, Phase.todo] at ht
    simp only [Option.map_some, enter, Phase.todo]
    rw [← hidle ht]
    refine Moment.brings_log_singleton hw hc ⟨?_, _, ht⟩
    rw [hw]
    exact hr.live (by simpa [isStopped] using hs)
  | wakeStopped hp hs =>
    exact p.brings_exit settings hw hc ht (.inr fun h => by simp [mayGoOn, hs] at h)

theorem role_of_turn {q : Performer} (h : (p.turn settings now s).2 = some q) :
    q.role = p.role := by
  fun_induction turn settings now p s with
  | case1 p s after => cases h
  | case2 p s after p' hp' hrun ih => exact (ih h).trans (role_of_step settings now hp')
  | case3 p s after p' hp' hrun => exact Option.some.inj h ▸ role_of_step settings now hp'

theorem keeps_turn (settings : Settings) (now : Nat) (p : Performer) (s : Scene) :
    s.world.runs.Keeps (p.turn settings now s).1.world.runs := by
  fun_induction turn settings now p s with
  | case1 p s after => exact keeps_step settings now p s
  | case2 p s after p' hp' hrun ih => exact (keeps_step settings now p s).trans ih
  | case3 p s after p' hp' hrun => exact keeps_step settings now p s

/-- A turn takes what it runs from the front of what its part has to run. -/
theorem brings_turn (settings : Settings) (hw : m.world = s.world) (hc : m.clock ≤ now)
    (hr : s.world.runs.Holds p.run) (ht : m.todo p.role = some p.phase.todo) :
    m.Brings settings now (s.log settings now (p.turnDeeds settings now s))
      (p.turn settings now s).1.world m.ringing
      (Function.update m.todo p.role ((p.turn settings now s).2.map (·.phase.todo))) := by
  fun_induction turn settings now p s generalizing m with
  | case1 p s after =>
    rename_i h
    have hb := brings_step (p.step_case settings now s) hw hc hr ht
    rw [← p.step_scene, h] at hb
    rw [turnDeeds_of_none settings now h]
    exact hb
  | case2 p s after p' =>
    rename_i h hrun ih
    have hrole := role_of_step settings now h
    have hb := brings_step (p.step_case settings now s) hw hc hr ht
    rw [← p.step_scene, h] at hb
    have hr' : after.1.world.runs.Holds p'.run := by
      have hrun' : p'.run = p.run := congrArg Role.run hrole
      rw [hrun']
      exact ((keeps_step settings now p s).2 p.run).2 hr
    rw [turnDeeds_of_runnable settings now h hrun, Scene.log_append, ← p.step_scene]
    refine hb.append fun n hc hw hr hn => ?_
    have hi := ih hw hc hr' (by rw [hn, hrole, Function.update_self]; rfl)
    rw [hr, hn, hrole, Function.update_idem] at hi
    exact hi
  | case3 p s after p' =>
    rename_i h hrun
    have hb := brings_step (p.step_case settings now s) hw hc hr ht
    rw [← p.step_scene, h] at hb
    rw [turnDeeds_of_not_runnable settings now h hrun]
    exact hb

end Performer

end SpriteCanvas
