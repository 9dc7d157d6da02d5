import SpriteCanvas.Audience.Delivery

/-!
# Performances

A performer runs one sprite's script for one run: the blocks before the first loop, and then the
body of that loop again and again.  After each block of a loop it rests for the step delay, and
when it wakes it has the waiting checks made.  Before each block it looks whether its run was
stopped and whether its sprite still has the generation it began with; if not, it ends.

`step` is the least part of this, and `turn` goes on until the performer rests or ends.  Each step
leaves less to do (`work_lt_of_step`), so a turn ends.
-/

namespace SpriteCanvas

/-- A loop under way: the whole passes still to come, and the rest of the present one. -/
structure Loop where
  body : Script
  passes : Nat
  rest : Script

namespace Loop

/-- The next block, and the loop after it. -/
def next? (l : Loop) : Option (Block × Loop) :=
  match l.rest with
  | b :: rest => some (b, { l with rest := rest })
  | [] =>
    match l.passes, l.body with
    | passes + 1, b :: rest => some (b, { l with passes := passes, rest := rest })
    | _, _ => none

/-- The number of blocks still to run. -/
def left (l : Loop) : Nat := l.passes * l.body.length + l.rest.length

theorem left_of_next? {l l' : Loop} {b : Block} (h : l.next? = some (b, l')) :
    l.left = l'.left + 1 := by
  obtain ⟨body, passes, rest⟩ := l
  simp only [next?] at h
  split at h
  · cases h
    simp [left]
    omega
  · split at h
    · cases h
      simp only [left, List.length_cons, List.length_nil, Nat.succ_mul]
      omega
    · cases h

end Loop

/-- Where a performer is in its script. -/
inductive Phase where
  /-- Before the first loop, with these blocks still to run. -/
  | opening (rest : Script)
  /-- In a loop, with a block to run next. -/
  | looping (loop : Loop)
  /-- In a loop, resting until some time after a block. -/
  | resting (loop : Loop) (wake : Nat)

/-- How many steps a phase can still take, at most. -/
def Phase.work : Phase → Nat
  | opening rest => 2 * rest.unrolled.length + rest.length + 2
  | looping l => 2 * l.left + 1
  | resting l _ => 2 * l.left + 2

theorem Phase.work_pos (phase : Phase) : 0 < phase.work := by
  cases phase with
  | opening rest => exact Nat.succ_pos _
  | looping l => exact Nat.succ_pos _
  | resting l wake => exact Nat.succ_pos _

/-- The performance of one sprite's script in one run. -/
structure Performer where
  id : SpriteId
  generation : Nat
  run : RunId
  phase : Phase

namespace Performer

variable (settings : Settings) (now : Nat)

/-- Whether the run of a performer was stopped. -/
def isStopped (p : Performer) (w : World) : Bool := w.runs.isStopped p.run

/-- Whether a performer may go on: its run was not stopped, and its sprite is the one it began
with. -/
def mayGoOn (p : Performer) (w : World) : Bool :=
  !p.isStopped w && w.cast.isCurrent p.id p.generation

/-- Whether a performer can take a turn: unless it rests, it can; if it rests, it can once its time
has come or its run is stopped. -/
def isRunnable (p : Performer) (w : World) : Bool :=
  match p.phase with
  | .resting _ wake => wake ≤ now || p.isStopped w
  | _ => true

/-- When a performer wakes, if it rests. -/
def wake? (p : Performer) : Option Nat :=
  match p.phase with
  | .resting _ wake => some wake
  | _ => none

/-- The performer in another phase. -/
def enter (p : Performer) (phase : Phase) : Performer := { p with phase := phase }

/-- The scene after the performer has left its loop. -/
def leaveLoop (p : Performer) (s : Scene) : Scene :=
  { s with world := s.world.setLooping p.id p.generation false }

/-- Runs one command, if the sprite is registered, and tells the host. -/
def execute (p : Performer) (command : Command) (s : Scene) : Scene :=
  match s.world.cast.find? p.id with
  | none => s
  | some m =>
    let (world, notices) := s.world.execute settings now m command
    { s with world := world }.deliver settings now notices

/-- Has the waiting checks made, and tells the host. -/
def drain (s : Scene) : Scene :=
  let (world, notices, _) := s.world.drain settings now
  { s with world := world }.deliver settings now notices

/-- One step of a performer, and the performer after it unless it has ended. -/
def step (p : Performer) (s : Scene) : Scene × Option Performer :=
  match p.phase with
  | .opening [] => (s, none)
  | .opening (b :: rest) =>
    match b.command with
    | .loop times =>
      ({ s with world := s.world.setLooping p.id p.generation true },
        some (p.enter (.looping ⟨Script.body rest, times.toNat, []⟩)))
    | command =>
      if p.mayGoOn s.world then
        (p.execute settings now command s, some (p.enter (.opening rest)))
      else (s, none)
  | .looping l =>
    match l.next? with
    | none => (p.leaveLoop s, none)
    | some (b, l) =>
      if p.mayGoOn s.world then
        let s := p.execute settings now b.command s
        if p.isStopped s.world then (p.leaveLoop s, none)
        else (s, some (p.enter (.resting l (now + settings.stepDelay))))
      else (p.leaveLoop s, none)
  | .resting l _ =>
    if p.isStopped s.world then (p.leaveLoop s, none)
    else (drain settings now s, some (p.enter (.looping l)))

theorem work_lt_of_step {p p' : Performer} {s : Scene}
    (h : (p.step settings now s).2 = some p') : p'.phase.work < p.phase.work := by
  unfold step at h
  split at h
  · cases h
  · rename_i b rest hp
    split at h
    · rename_i times hb
      cases h
      have hu := congrArg List.length (Script.unrolled_cons_of_loop hb rest)
      rw [List.length_flatten, List.map_replicate, List.sum_replicate_nat] at hu
      simp only [enter, hp, Phase.work, hu, Loop.left, List.length_nil, List.length_cons]
      omega
    · rename_i hb
      split at h
      · cases h
        have hu := Script.unrolled_cons_of_not_loop hb rest
        simp only [enter, hp, Phase.work, hu, List.length_cons]
        omega
      · cases h
  · rename_i l hp
    split at h
    · cases h
    · rename_i b l' hn
      have hl := Loop.left_of_next? hn
      split at h
      · dsimp only at h
        split at h
        · cases h
        · cases h
          simp only [enter, hp, Phase.work]
          omega
      · cases h
  · rename_i l wake hp
    split at h
    · cases h
    · cases h
      simp only [enter, hp, Phase.work]
      omega

/-- Steps of a performer until it rests past `now` or ends. -/
def turn (p : Performer) (s : Scene) : Scene × Option Performer :=
  let after := p.step settings now s
  match _h : after.2 with
  | none => (after.1, none)
  | some p' => if p'.isRunnable now after.1.world then turn p' after.1 else (after.1, some p')
termination_by p.phase.work
decreasing_by exact work_lt_of_step settings now _h

/-- Who goes on after a turn has less to do. -/
theorem work_lt_of_turn {p q : Performer} {s : Scene} (h : (p.turn settings now s).2 = some q) :
    q.phase.work < p.phase.work := by
  fun_induction turn settings now p s with
  | case1 p s after => cases h
  | case2 p s after p' hp' hrun ih => exact Nat.lt_trans (ih h) (work_lt_of_step settings now hp')
  | case3 p s after p' hp' hrun => exact Option.some.inj h ▸ work_lt_of_step settings now hp'

end Performer

end SpriteCanvas
