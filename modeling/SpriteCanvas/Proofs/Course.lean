import SpriteCanvas.Playback.Session
import SpriteCanvas.Proofs.Chronicle

/-!
# Courses

A course is an engine with its clock and the chronicle of all that has happened.  It goes on by
moves: a call or a request to play from outside, the turn of the alarms, the turn of any performer
that can take one, and the passing of time.  Nothing is asked of the order of the moves, so the
turn order of a session is one among many.
-/

namespace SpriteCanvas

/-- Something that can happen next. -/
inductive Move where
  | call (c : Call)
  | play
  /-- The alarms take their turn. -/
  | alarms
  /-- The performer at this place takes its turn, if it can. -/
  | performer (place : Nat)
  | pass (duration : Nat)

/-- An engine, its clock and what has happened. -/
structure Course where
  clock : Nat
  engine : Show
  chronicle : List Entry

namespace Course

def start (listening : Listening) (reactions : List Reaction) : Course where
  clock := 0
  engine := ⟨⟨.initial, .new listening reactions⟩, []⟩
  chronicle := []

variable (settings : Settings) (x : Course)

/-- The performer that a place means, if it can take a turn. -/
def runnable? (place : Nat) : Option Performer :=
  x.engine.performers[place]?.filter fun p => p.isRunnable x.clock x.engine.world

/-- The performers but for the one at a place, in two halves, the first one backwards. -/
def around (place : Nat) : List Performer × List Performer :=
  ((x.engine.performers.take place).reverse, x.engine.performers.drop (place + 1))

variable {x} in
theorem performers_around {place : Nat} {p : Performer} (h : x.runnable? place = some p) :
    x.engine.performers = (x.around place).1.reverse ++ p :: (x.around place).2 := by
  simp only [runnable?, Option.filter_eq_some_iff] at h
  obtain ⟨hlt, hget⟩ := List.getElem?_eq_some_iff.1 h.1
  rw [around, List.reverse_reverse, ← hget, List.getElem_cons_drop, List.take_append_drop]

def next : Move → Show
  | .call c => (x.engine.call settings x.clock c).2
  | .play =>
    match x.engine.play? with
    | some (_, engine) => engine
    | none => x.engine
  | .alarms => x.engine.alarmTurn settings x.clock
  | .performer place =>
    match x.runnable? place with
    | some p =>
      Show.performerTurn settings x.clock (x.around place).1 p (x.around place).2 x.engine.scene
    | none => x.engine
  | .pass _ => x.engine

def deeds : Move → List Deed
  | .call c => [.answer c]
  | .play =>
    match x.engine.play? with
    | some (run, engine) => .begin run :: Show.finishDeeds run engine.performers
    | none => []
  | .alarms => x.engine.alarmDeeds x.clock
  | .performer place =>
    match x.runnable? place with
    | some p =>
      Show.performerDeeds settings x.clock p ((x.around place).1.reverse ++ (x.around place).2)
        x.engine.scene
    | none => []
  | .pass _ => []

theorem play_cases :
    (x.next settings .play = x.engine ∧ x.deeds settings .play = [])
      ∨ ∃ run engine, x.engine.play? = some (run, engine) ∧ x.next settings .play = engine
        ∧ x.deeds settings .play = .begin run :: Show.finishDeeds run engine.performers := by
  rcases hp : x.engine.play? with _ | ⟨run, engine⟩
  · exact .inl ⟨by simp only [next, hp], by simp only [deeds, hp]⟩
  · exact .inr ⟨run, engine, rfl, by simp only [next, hp], by simp only [deeds, hp]⟩

/-- A place means nobody who can take a turn, or the one there takes it. -/
theorem performer_cases (place : Nat) :
    (x.next settings (.performer place) = x.engine ∧ x.deeds settings (.performer place) = [])
      ∨ ∃ before p after, x.engine.performers = before.reverse ++ p :: after
        ∧ p.isRunnable x.clock x.engine.world
        ∧ x.next settings (.performer place)
          = Show.performerTurn settings x.clock before p after x.engine.scene
        ∧ x.deeds settings (.performer place)
          = Show.performerDeeds settings x.clock p (before.reverse ++ after) x.engine.scene := by
  rcases hp : x.runnable? place with _ | p
  · exact .inl ⟨by simp only [next, hp], by simp only [deeds, hp]⟩
  · refine .inr
      ⟨_, p, _, performers_around hp, ?_, by simp only [next, hp], by simp only [deeds, hp]⟩
    simp only [runnable?, Option.filter_eq_some_iff] at hp
    exact hp.2

variable {settings x} in
/-- Only a call answers. -/
theorem eq_call_of_mem_deeds {m : Move} {c : Call} (h : .answer c ∈ x.deeds settings m) :
    m = .call c := by
  cases m with
  | call c' =>
    cases List.mem_singleton.1 h
    rfl
  | play =>
    rcases play_cases settings x with ⟨-, hd⟩ | ⟨run, engine, -, -, hd⟩ <;>
      rw [hd] at h
    · cases h
    · rcases List.mem_cons.1 h with h | h
      · cases h
      · cases Show.eq_of_mem_finishDeeds h
  | alarms =>
    rcases List.mem_cons.1 h with h | h
    · cases h
    · obtain ⟨_, -, h⟩ := List.mem_map.1 h
      cases h
  | performer place =>
    rcases performer_cases settings x place with
      ⟨-, hd⟩ | ⟨before, p, after, -, -, -, hd⟩ <;> rw [hd] at h
    · cases h
    · rcases Show.role?_of_mem_performerDeeds settings x.clock h with h | h <;> cases h
  | pass duration => cases h

def move (m : Move) : Course where
  clock :=
    match m with
    | .pass duration => x.clock + duration
    | _ => x.clock
  engine := x.next settings m
  chronicle := x.chronicle ++ x.engine.scene.log settings x.clock (x.deeds settings m)

def run : List Move → Course → Course
  | [], x => x
  | m :: ms, x => run ms (x.move settings m)

theorem run_append (ms ns : List Move) :
    run settings (ms ++ ns) x = run settings ns (run settings ms x) := by
  induction ms generalizing x with
  | nil => rfl
  | cons m ms ih => exact ih _

theorem clock_le_move (m : Move) : x.clock ≤ (x.move settings m).clock := by
  cases m with
  | pass duration => exact Nat.le_add_right x.clock duration
  | _ => exact Nat.le_refl x.clock

/-- A move does its deeds, and nothing else to the scene. -/
theorem move_scene (m : Move) :
    (x.move settings m).engine.scene
      = x.engine.scene.performAll settings x.clock (x.deeds settings m) := by
  cases m with
  | call c => rfl
  | play =>
    simp only [move, next, deeds]
    split
    · rename_i run engine h
      exact Show.play?_scene settings x.clock h
    · rfl
  | alarms => exact Show.alarmTurn_scene settings x.clock x.engine
  | performer place =>
    simp only [move, next, deeds]
    split
    · exact Show.performerTurn_scene settings x.clock _ _ _ _
    · rfl
  | pass duration => rfl

/-- What the moves keep holds after any moves. -/
theorem run_induction {P : Course → Prop} (hx : P x)
    (hmove : ∀ y m, P y → P (y.move settings m)) (ms : List Move) : P (x.run settings ms) := by
  induction ms generalizing x with
  | nil => exact hx
  | cons m ms ih => exact ih (x.move settings m) (hmove x m hx)

/-- What has happened stays in the chronicle. -/
theorem chronicle_run (ms : List Move) :
    ∃ log, (x.run settings ms).chronicle = x.chronicle ++ log := by
  refine run_induction settings x (P := fun y => ∃ log, y.chronicle = x.chronicle ++ log)
    ⟨[], by simp⟩ (fun y m h => ?_) ms
  obtain ⟨log, h⟩ := h
  exact ⟨log ++ y.engine.scene.log settings y.clock (y.deeds settings m),
    (congrArg (· ++ _) h).trans (List.append_assoc _ _ _)⟩

/-- A request to play begins a run unless one is live. -/
theorem chronicle_play (ms : List Move) {run : RunId} {runs : RunBook}
    (h : x.engine.world.runs.begin? = some (run, runs)) :
    ∃ log, (x.run settings (.play :: ms)).chronicle
      = x.chronicle ++ ⟨x.clock, .begin run⟩ :: log := by
  obtain ⟨engine, hp⟩ := Show.exists_play? h
  obtain ⟨log, hlog⟩ := chronicle_run settings (x.move settings .play) ms
  rw [Course.run, hlog]
  simp only [move, deeds, hp, Scene.log, List.append_assoc, List.cons_append]
  exact ⟨_, rfl⟩

end Course

def Session.stepAll (s : Session) (steps : List Step) : Session :=
  steps.foldl (fun s st => (s.step st).2) s

end SpriteCanvas
