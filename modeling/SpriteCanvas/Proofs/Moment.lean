import Mathlib.Logic.Function.Basic
import SpriteCanvas.Proofs.Frame

/-!
# Chronicles as lists of deeds

A chronicle is replayed from the world of a new engine: a moment is what the deeds so far have come
to, the world, the alarms that are about to ring and the blocks that each part still has to run.
`Moment.Allows` says what may happen next, and a chronicle is lawful if each of its entries may
happen at its moment.  `Brings` puts together what a stretch of a chronicle does.
-/

namespace SpriteCanvas

/-- What the deeds so far have come to. -/
structure Moment where
  clock : Nat
  world : World
  /-- The alarms that were taken out of the schedule and have not rung yet. -/
  ringing : List (AlarmId × Expiry)
  /-- The blocks that a part still has to run, while it has not left. -/
  todo : Role → Option Script

/-- The blocks that a part has to run in a run that begins now. -/
def World.score (w : World) (r : Role) : Option Script :=
  ((w.cast.find? r.id).filter (·.generation = r.generation)).map (·.script.unrolled)

theorem World.score_of_mem {w : World} {m : Member} (h : m ∈ w.cast.members) (run : RunId) :
    w.score ⟨run, m.id, m.generation⟩ = some m.script.unrolled := by
  rw [score, Cast.find?_of_mem h, Option.filter_some_pos (by simp)]
  rfl

namespace Moment

def start : Moment := ⟨0, .initial, [], fun _ => none⟩

variable (settings : Settings) (now : Nat) (m : Moment)

def ringingAfter : Deed → List (AlarmId × Expiry)
  | .collect => (m.world.alarms.schedule.takeDue now).1
  | .ring _ _ => m.ringing.tail
  | _ => m.ringing

def todoAfter : Deed → Role → Option Script
  | .begin run => fun r => if r.run = run then m.world.score r else m.todo r
  | .execute r _ => Function.update m.todo r ((m.todo r).map List.tail)
  | .leave r => Function.update m.todo r none
  | _ => m.todo

def perform (e : Entry) : Moment where
  clock := e.time
  world := (m.world.perform settings e.time e.deed).1
  ringing := m.ringingAfter e.time e.deed
  todo := m.todoAfter e.deed

theorem todo_perform (e : Entry) : (m.perform settings e).todo = m.todoAfter e.deed := rfl

theorem runs_perform (e : Entry) :
    (m.perform settings e).world.runs = m.world.runs.perform e.deed :=
  World.perform_runs settings e.time m.world e.deed

def after (m : Moment) (log : List Entry) : Moment := log.foldl (·.perform settings) m

/-- What may happen: a run begins while none is live; a block is executed for a part of the live
run that has it to run next, and whose sprite is the one that went into the run; a part leaves at
its end, or when it was stopped or its sprite is another one; alarms ring as they were taken. -/
def Allows : Deed → Prop
  | .begin run => m.world.runs.live = none ∧ run = m.world.runs.begun
  | .execute r b =>
    m.world.runs.live = some r.run ∧ m.world.cast.isCurrent r.id r.generation = true
      ∧ ∃ rest, m.todo r = some (b :: rest)
  | .mark r _ => ∃ script, m.todo r = some script
  | .drain r => m.world.runs.live = some r.run ∧ ∃ script, m.todo r = some script
  | .leave r =>
    ∃ script, m.todo r = some script
      ∧ (script = [] ∨ m.world.runs.isStopped r.run = true
        ∨ m.world.cast.isCurrent r.id r.generation = false)
  | .finish run => run < m.world.runs.begun ∧ ∀ r, r.run = run → m.todo r = none
  | .collect => m.ringing = []
  | .ring alarm expiry => ∃ rest, m.ringing = (alarm, expiry) :: rest
  | .answer _ | .tell _ => True

/-- Every entry may happen when it does, and time does not go back. -/
def Lawful : Moment → List Entry → Prop
  | _, [] => True
  | m, e :: log => m.clock ≤ e.time ∧ m.Allows e.deed ∧ Lawful (m.perform settings e) log

@[simp] theorem after_nil : m.after settings [] = m := rfl

@[simp] theorem after_cons (e : Entry) (log : List Entry) :
    m.after settings (e :: log) = (m.perform settings e).after settings log := rfl

theorem after_append (log log' : List Entry) :
    m.after settings (log ++ log') = (m.after settings log).after settings log' :=
  List.foldl_append

theorem lawful_append (log log' : List Entry) :
    Lawful settings m (log ++ log')
      ↔ Lawful settings m log ∧ Lawful settings (m.after settings log) log' := by
  induction log generalizing m with
  | nil => simp [Lawful]
  | cons e log ih => simp only [List.cons_append, Lawful, after_cons, ih, and_assoc]

variable {settings}

/-- What holds at first and is kept by every entry that may happen holds after a lawful
chronicle. -/
theorem Lawful.induction {P : List Entry → Moment → Prop} {m : Moment} {log : List Entry}
    (h : Lawful settings m log) (hm : P [] m)
    (hstep : ∀ e ∈ log, ∀ before n, P before n → n.clock ≤ e.time → n.Allows e.deed →
      P (before ++ [e]) (n.perform settings e)) : P log (m.after settings log) := by
  suffices H : ∀ (rest before : List Entry) (n : Moment), (∀ e ∈ rest, e ∈ log) →
      Lawful settings n rest → P before n → P (before ++ rest) (n.after settings rest) from
    H log [] m (fun e he => he) h hm
  intro rest
  induction rest with
  | nil =>
    intro before n _ _ hP
    simpa using hP
  | cons e rest ih =>
    intro before n hsub hl hP
    have he := hstep e (hsub e List.mem_cons_self) before n hP hl.1 hl.2.1
    have := ih (before ++ [e]) (n.perform settings e)
      (fun e' he' => hsub e' (List.mem_cons_of_mem e he')) hl.2.2 he
    simpa using this

theorem Lawful.clock_le {m : Moment} {log : List Entry} (h : Lawful settings m log) :
    m.clock ≤ (m.after settings log).clock := by
  induction log generalizing m with
  | nil => exact Nat.le_refl _
  | cons e log ih => exact Nat.le_trans h.1 (ih h.2.2)

/-- Everything happens between the first time and the last. -/
theorem Lawful.time_mem {m : Moment} {log : List Entry} {e : Entry} (h : Lawful settings m log)
    (he : e ∈ log) : m.clock ≤ e.time ∧ e.time ≤ (m.after settings log).clock := by
  induction log generalizing m with
  | nil => cases he
  | cons e' log ih =>
    rcases List.mem_cons.1 he with rfl | he
    · exact ⟨h.1, h.2.2.clock_le⟩
    · exact ⟨Nat.le_trans h.1 (ih h.2.2 he).1, (ih h.2.2 he).2⟩

/-- What a stretch of a chronicle comes to: it is lawful, it is over by `now`, and it leaves the
world, the alarms and the parts as given. -/
structure Brings (settings : Settings) (now : Nat) (m : Moment) (log : List Entry)
    (world : World) (ringing : List (AlarmId × Expiry)) (todo : Role → Option Script) : Prop where
  lawful : Lawful settings m log
  clock : (m.after settings log).clock ≤ now
  world : (m.after settings log).world = world
  ringing : (m.after settings log).ringing = ringing
  todo : (m.after settings log).todo = todo

variable {now m} {log log' : List Entry} {w w' : World}
  {ringing ringing' : List (AlarmId × Expiry)} {todo todo' : Role → Option Script} {s : Scene}

theorem Brings.nil (hc : m.clock ≤ now) : m.Brings settings now [] m.world m.ringing m.todo :=
  ⟨trivial, hc, rfl, rfl, rfl⟩

theorem Brings.append (h : m.Brings settings now log w ringing todo)
    (h' : ∀ n : Moment, n.clock ≤ now → n.world = w → n.ringing = ringing → n.todo = todo →
      n.Brings settings now log' w' ringing' todo') :
    m.Brings settings now (log ++ log') w' ringing' todo' := by
  have h' := h' _ h.clock h.world h.ringing h.todo
  refine ⟨(lawful_append settings m log log').2 ⟨h.lawful, h'.lawful⟩, ?_, ?_, ?_, ?_⟩
  · rw [after_append]
    exact h'.clock
  · rw [after_append]
    exact h'.world
  · rw [after_append]
    exact h'.ringing
  · rw [after_append]
    exact h'.todo

theorem brings_cons {d : Deed} (hc : m.clock ≤ now) (ha : m.Allows d)
    (h : (m.perform settings ⟨now, d⟩).Brings settings now log w ringing todo) :
    m.Brings settings now (⟨now, d⟩ :: log) w ringing todo :=
  ⟨⟨hc, ha, h.lawful⟩, h.clock, h.world, h.ringing, h.todo⟩

theorem world_runLog (errands : List Errand) (hw : m.world = s.world) :
    (m.after settings (s.runLog settings now errands)).world
      = (s.run settings now errands).world := by
  fun_induction Scene.runLog settings now errands s generalizing m with
  | case1 s =>
    rw [Scene.run]
    exact hw
  | case2 n errands s ih =>
    rw [Scene.run]
    exact ih hw
  | case3 c errands s reply =>
    rename_i ih
    rw [Scene.run]
    refine ih ?_
    simp only [perform, World.perform, hw]
    rfl
  | case4 a errands s ih =>
    rw [Scene.run]
    exact ih hw

/-- The deeds in a chronicle come to the world that they lead to. -/
theorem world_log (ds : List Deed) (hw : m.world = s.world) :
    (m.after settings (s.log settings now ds)).world = (s.performAll settings now ds).world := by
  induction ds generalizing m s with
  | nil => exact hw
  | cons d ds ih =>
    rw [Scene.log, List.cons_append, after_cons, after_append]
    refine ih (world_runLog _ ?_)
    simp only [perform, hw]

/-- Errands change the world as they are run, and nothing else. -/
theorem brings_runLog (errands : List Errand) (hw : m.world = s.world) (hc : m.clock ≤ now) :
    m.Brings settings now (s.runLog settings now errands) (s.run settings now errands).world
      m.ringing m.todo := by
  fun_induction Scene.runLog settings now errands s generalizing m with
  | case1 s =>
    rw [Scene.run, ← hw]
    exact .nil hc
  | case2 n errands s ih =>
    rw [Scene.run]
    exact brings_cons hc trivial (ih hw (Nat.le_refl now))
  | case3 c errands s reply =>
    rename_i ih
    rw [Scene.run]
    refine brings_cons hc trivial (ih ?_ (Nat.le_refl now))
    simp only [perform, World.perform, hw]
    rfl
  | case4 a errands s ih =>
    rw [Scene.run]
    exact ih hw hc

/-- A deed and what the host does then. -/
theorem brings_log_cons {d : Deed} {ds : List Deed} (hw : m.world = s.world) (hc : m.clock ≤ now)
    (ha : m.Allows d)
    (h : ∀ n : Moment, n.clock ≤ now → n.world = (s.perform settings now d).world →
      n.ringing = m.ringingAfter now d → n.todo = m.todoAfter d →
      n.Brings settings now ((s.perform settings now d).log settings now ds) w ringing todo) :
    m.Brings settings now (s.log settings now (d :: ds)) w ringing todo := by
  rw [Scene.log, List.cons_append]
  refine brings_cons hc ha (Brings.append ?_ h)
  refine brings_runLog _ ?_ (Nat.le_refl now)
  simp only [perform, hw]

theorem brings_log_singleton {d : Deed} (hw : m.world = s.world) (hc : m.clock ≤ now)
    (ha : m.Allows d) :
    m.Brings settings now (s.log settings now [d]) (s.perform settings now d).world
      (m.ringingAfter now d) (m.todoAfter d) :=
  brings_log_cons hw hc ha fun n hc hw hr ht => by
    rw [← hw, ← hr, ← ht]
    exact .nil hc

end Moment

end SpriteCanvas
