import SpriteCanvas.Proofs.Endings
import SpriteCanvas.Proofs.View

/-!
# The share of a sprite in a show

A sprite's share in a show is its view and the parts of its performers: where each one is in its
script, and what it finds when it looks whether to go on.  Performers at the same part with the same
view of their sprite take the same turn (`Performer.Twins.turn`).  A turn leaves the share as it is
or is the sprite's own (`Show.turn_cases`), what the sprite's own turn does to the share depends on
the share alone (`Show.Acts.congr`), and so does whether there is one to take
(`Show.still_of_turn?`, `Show.Acts.not_still`).
-/

namespace SpriteCanvas

/-- Where a performer is in its script, whether its sprite is the one that it began with, and
whether its run was stopped. -/
structure Part where
  phase : Phase
  current : Bool
  stopped : Bool

/-- Whether a part allows a turn. -/
def Part.isRunnable (now : Nat) (p : Part) : Bool :=
  match p.phase with
  | .resting _ wake => wake ≤ now || p.stopped
  | _ => true

namespace Performer

def part (p : Performer) (w : World) : Part :=
  ⟨p.phase, w.cast.isCurrent p.id p.generation, p.isStopped w⟩

variable {settings : Settings} {now : Nat} {p q : Performer} {s t : Scene} {id : SpriteId}

theorem isRunnable_part (p : Performer) (w : World) :
    (p.part w).isRunnable now = p.isRunnable now w := rfl

theorem mayGoOn_congr {w v : World} (h : p.part w = q.part v) : p.mayGoOn w = q.mayGoOn v := by
  obtain ⟨-, hc, hs⟩ := Part.mk.inj h
  rw [mayGoOn, mayGoOn, hc, hs]

theorem part_congr {w v : World} (hc : w.cast.part? p.id = v.cast.part? p.id)
    (hr : w.runs.stopped = v.runs.stopped) : p.part w = p.part v := by
  rw [part, part, Cast.isCurrent_eq, Cast.isCurrent_eq, hc, isStopped, isStopped,
    RunBook.isStopped, RunBook.isStopped, hr]

theorem part_of_role {w : World} (h : q.role = p.role) :
    q.part w = { p.part w with phase := q.phase } := by
  obtain ⟨hr, hi, hg⟩ := Role.mk.inj h
  rw [part, part, isStopped, isStopped, hr, hi, hg]

end Performer

/-- A deed that recasts nobody and stops no run. -/
def Deed.Calm (d : Deed) : Prop :=
  d.recast? = none ∧ ∀ b : RunBook, (b.perform d).stopped = b.stopped

theorem Deed.calm_of_role? {d : Deed} {r : Role} (h : d.role? = some r) : d.Calm := by
  refine ⟨?_, fun b => by rw [RunBook.perform_of_role? h]⟩
  cases d with
  | answer c => cases h
  | _ => rfl

namespace Scene

variable {settings : Settings} {now : Nat} {s t : Scene} {id : SpriteId} {ds : List Deed}

/-- Calm deeds leave every part as it is. -/
theorem part_performAll : ∀ {ds : List Deed} {s : Scene}, s.audience.waiting = [] →
    (∀ d ∈ ds, d.Calm) → ∀ p : Performer, p.part (s.performAll settings now ds).world
      = p.part s.world
  | [], _, _, _, _ => rfl
  | d :: ds, s, h, hds, p => by
    obtain ⟨hw, hq⟩ := perform_quiet settings now h d
    obtain ⟨hc, hr⟩ := hds d List.mem_cons_self
    refine (part_performAll hq (fun d hd => hds d (List.mem_cons_of_mem _ hd)) p).trans ?_
    rw [hw]
    refine Performer.part_congr (World.part?_perform settings now s.world ?_) ?_
    · rw [hc]
      exact nofun
    · rw [World.perform_runs, hr]

theorem Fit.performAll (h : s.Fit now) (hds : ∀ d ∈ ds, ∃ r, d.role? = some r) :
    (s.performAll settings now ds).Fit now := by
  induction ds generalizing s with
  | nil => exact h
  | cons d ds ih =>
    obtain ⟨r, hr⟩ := hds d List.mem_cons_self
    exact ih (h.perform_of_role hr) fun d hd => hds d (List.mem_cons_of_mem _ hd)

/-- Deeds of performers that are not about a sprite leave its view as it is. -/
theorem view_performAll_of_spares (hr : settings.detector.OutOfReach) (h : s.Fit now)
    (hds : ∀ d ∈ ds, d.PassesBy id ∧ ∃ r, d.role? = some r) :
    (s.performAll settings now ds).view id = s.view id := by
  induction ds generalizing s with
  | nil => rfl
  | cons d ds ih =>
    obtain ⟨hd, r, hrole⟩ := hds d List.mem_cons_self
    refine (ih (h.perform_of_role hrole) fun d hd => hds d (List.mem_cons_of_mem _ hd)).trans ?_
    exact view_perform_of_spares hr h hd

theorem view_execute_congr (hr : settings.detector.OutOfReach) (hs : s.Fit now) (ht : t.Fit now)
    (hv : s.view id = t.view id) {p q : Role} (hp : p.id = id) (hq : q.id = id) (b : Block) :
    (s.perform settings now (.execute p b)).view id
      = (t.perform settings now (.execute q b)).view id := by
  obtain ⟨tables, hks⟩ := hs.kept
  obtain ⟨tablet, hkt⟩ := ht.kept
  have hsight := congrArg View.sight hv
  refine view_perform_congr hs.quiet ht.quiet hv ?_
  simp only [World.perform, hp, hq]
  rcases Cast.look?_cases (World.sight_eq_iff.1 hsight).1 with ⟨hm, hn⟩ | ⟨m, n, hm, hn, -⟩
  · rw [hm, hn]
    exact ⟨hsight, rfl⟩
  · rw [hm, hn]
    exact World.matches_execute now hr hks hkt hsight hm hn b.command

end Scene

namespace Performer

variable {settings : Settings} {now : Nat} {p q : Performer} {s t : Scene} {id : SpriteId}

theorem calm_of_mem_turnDeeds {d : Deed} (h : d ∈ p.turnDeeds settings now s) :
    d.Calm ∧ ∃ r, d.role? = some r :=
  have hr := role?_of_mem_turnDeeds settings now h
  ⟨Deed.calm_of_role? hr, _, hr⟩

theorem fit_step (hs : s.Fit now) : (p.step settings now s).1.Fit now := by
  rw [step_scene]
  exact hs.performAll fun d hd => ⟨_, role?_of_mem_stepDeeds settings now hd⟩

theorem part_step (hs : s.audience.waiting = []) (p q : Performer) :
    q.part (p.step settings now s).1.world = q.part s.world := by
  rw [step_scene]
  exact Scene.part_performAll hs
    (fun d hd => Deed.calm_of_role? (role?_of_mem_stepDeeds settings now hd)) q

theorem part_turn (settings : Settings) (now : Nat) (hs : s.audience.waiting = [])
    (p q : Performer) :
    q.part (p.turn settings now s).1.world = q.part s.world := by
  rw [turn_scene]
  exact Scene.part_performAll hs (fun d hd => (calm_of_mem_turnDeeds hd).1) q

theorem part_execute (settings : Settings) (now : Nat) (hs : s.audience.waiting = [])
    (p : Performer) (b : Block) :
    p.part (p.execute settings now b.command s).world = p.part s.world := by
  have hcalm : ∀ d ∈ [Deed.execute p.role b], d.Calm := by
    intro d hd
    obtain rfl := List.mem_singleton.1 hd
    exact Deed.calm_of_role? rfl
  rw [execute_eq]
  exact Scene.part_performAll hs hcalm p

theorem part_next {p' : Performer} (hs : s.audience.waiting = [])
    (h : (p.step settings now s).2 = some p') :
    p'.part (p.step settings now s).1.world = { p.part s.world with phase := p'.phase } := by
  rw [part_of_role (role_of_step settings now h), part_step hs]

theorem turn_eq (p : Performer) (s : Scene) : p.turn settings now s
    = match (p.step settings now s).2 with
      | none => ((p.step settings now s).1, none)
      | some p' =>
        if p'.isRunnable now (p.step settings now s).1.world then
          p'.turn settings now (p.step settings now s).1
        else ((p.step settings now s).1, some p') := by
  rw [turn]
  split <;> rename_i h <;> simp only [h]

/-- Two performers of a sprite that are at the same part, in scenes with the same view of it. -/
structure Twins (now : Nat) (id : SpriteId) (p : Performer) (s : Scene) (q : Performer)
    (t : Scene) : Prop where
  left : s.Fit now
  right : t.Fit now
  view : s.view id = t.view id
  left_id : p.id = id
  right_id : q.id = id
  part : p.part s.world = q.part t.world

/-- What two performers leave for a sprite: the same view, and the same phase to go on in. -/
def LeaveAlike (id : SpriteId) (r r' : Scene × Option Performer) : Prop :=
  r.1.view id = r'.1.view id ∧ r.2.map (·.phase) = r'.2.map (·.phase)

namespace Twins

theorem phase (h : p.Twins now id s q t) : q.phase = p.phase := (congrArg Part.phase h.part).symm

theorem execute (hr : settings.detector.OutOfReach) (h : p.Twins now id s q t) (b : Block) :
    (p.execute settings now b.command s).view id = (q.execute settings now b.command t).view id := by
  rw [execute_eq, execute_eq]
  exact Scene.view_execute_congr hr h.left h.right h.view h.left_id h.right_id b

/-- The flag of the loop is set alike. -/
theorem setLooping (hv : s.view id = t.view id) (hp : p.id = id) (hq : q.id = id)
    (hpart : p.part s.world = q.part t.world) (looping : Bool) :
    ({ s with world := s.world.setLooping p.id p.generation looping } : Scene).view id
      = ({ t with world := t.world.setLooping q.id q.generation looping } : Scene).view id := by
  obtain ⟨hsight, hlisten, hheard⟩ := View.mk.inj hv
  have hc : s.world.cast.isCurrent p.id p.generation = t.world.cast.isCurrent q.id q.generation :=
    congrArg Part.current hpart
  rw [hp, hq] at hc
  simp only [Scene.view, hp, hq, World.sight_setLooping hsight hc looping, hlisten, hheard]

theorem leaveLoop (h : p.Twins now id s q t) : (p.leaveLoop s).view id = (q.leaveLoop t).view id :=
  setLooping h.view h.left_id h.right_id h.part false

theorem drain (hr : settings.detector.OutOfReach) (h : p.Twins now id s q t) :
    (Performer.drain settings now s).view id = (Performer.drain settings now t).view id := by
  have hdrain : ∀ {s : Scene} (r : Role), s.Fit now →
      (Performer.drain settings now s).view id = s.view id := fun r hs =>
    Scene.view_perform_of_spares (d := .drain r) hr hs trivial
  exact (hdrain p.role h.left).trans (h.view.trans (hdrain q.role h.right).symm)

theorem step_opening (hr : settings.detector.OutOfReach) (h : p.Twins now id s q t)
    {rest : Script} (hph : p.phase = .opening rest) :
    LeaveAlike id (p.step settings now s) (q.step settings now t) := by
  have hphase : q.phase = .opening rest := h.phase.trans hph
  rcases rest with _ | ⟨b, rest⟩
  · simp only [step, hph, hphase]
    exact ⟨h.view, rfl⟩
  · by_cases hb : b.command.isLoop
    · obtain ⟨times, hb⟩ := Command.eq_loop_of_isLoop hb
      simp only [step, hph, hphase, hb]
      exact ⟨setLooping h.view h.left_id h.right_id h.part true, rfl⟩
    · have hne : ∀ times, b.command ≠ .loop times := fun times h => hb (h ▸ rfl)
      have hstep : ∀ (p : Performer) (s : Scene), p.phase = .opening (b :: rest) →
          p.step settings now s = if p.mayGoOn s.world then
            (p.execute settings now b.command s, some (p.enter (.opening rest)))
            else (s, none) := by
        intro p s hph
        simp only [step, hph]
      rw [hstep p s hph, hstep q t hphase, mayGoOn_congr h.part]
      split
      · exact ⟨h.execute hr b, rfl⟩
      · exact ⟨h.view, rfl⟩

theorem step_looping (hr : settings.detector.OutOfReach) (h : p.Twins now id s q t) {l : Loop}
    (hph : p.phase = .looping l) :
    LeaveAlike id (p.step settings now s) (q.step settings now t) := by
  simp only [step, hph, h.phase.trans hph]
  rcases l.next? with _ | ⟨b, l'⟩
  · exact ⟨h.leaveLoop, rfl⟩
  · dsimp only
    rw [mayGoOn_congr h.part]
    split
    · have hpart := (part_execute settings now h.left.quiet p b).trans
        (h.part.trans (part_execute settings now h.right.quiet q b).symm)
      have hstop : p.isStopped (p.execute settings now b.command s).world
          = q.isStopped (q.execute settings now b.command t).world := congrArg Part.stopped hpart
      rw [hstop]
      split
      · exact ⟨setLooping (h.execute hr b) h.left_id h.right_id hpart false, rfl⟩
      · exact ⟨h.execute hr b, rfl⟩
    · exact ⟨h.leaveLoop, rfl⟩

theorem step_resting (hr : settings.detector.OutOfReach) (h : p.Twins now id s q t) {l : Loop}
    {wake : Nat} (hph : p.phase = .resting l wake) :
    LeaveAlike id (p.step settings now s) (q.step settings now t) := by
  have hstop : p.isStopped s.world = q.isStopped t.world := congrArg Part.stopped h.part
  simp only [step, hph, h.phase.trans hph]
  rw [hstop]
  split
  · exact ⟨h.leaveLoop, rfl⟩
  · exact ⟨h.drain hr, rfl⟩

/-- Twins take the same step. -/
theorem step (hr : settings.detector.OutOfReach) (h : p.Twins now id s q t) :
    LeaveAlike id (p.step settings now s) (q.step settings now t) := by
  rcases hph : p.phase with rest | l | ⟨l, wake⟩
  · exact h.step_opening hr hph
  · exact h.step_looping hr hph
  · exact h.step_resting hr hph

/-- Twins that go on are twins after a step. -/
theorem next (hr : settings.detector.OutOfReach) (h : p.Twins now id s q t) {p' : Performer}
    (hp' : (p.step settings now s).2 = some p') : ∃ q', (q.step settings now t).2 = some q'
      ∧ p'.Twins now id (p.step settings now s).1 q' (q.step settings now t).1 := by
  obtain ⟨hview, hphase⟩ := h.step hr
  rw [hp', Option.map_some, eq_comm, Option.map_eq_some_iff] at hphase
  obtain ⟨q', hq', hphase⟩ := hphase
  refine ⟨q', hq', fit_step h.left, fit_step h.right, hview, ?_, ?_, ?_⟩
  · exact (congrArg Role.id (role_of_step settings now hp')).trans h.left_id
  · exact (congrArg Role.id (role_of_step settings now hq')).trans h.right_id
  · rw [part_next h.left.quiet hp', part_next h.right.quiet hq', h.part, hphase]

/-- Twins take the same turn. -/
theorem turn (hr : settings.detector.OutOfReach) (h : p.Twins now id s q t) :
    LeaveAlike id (p.turn settings now s) (q.turn settings now t) := by
  fun_induction Performer.turn settings now p s generalizing q t with
  | case1 p s after =>
    rename_i hp'
    obtain ⟨hview, hphase⟩ := h.step hr
    rw [hp', Option.map_none, eq_comm, Option.map_eq_none_iff] at hphase
    rw [turn_eq q, hphase]
    exact ⟨hview, rfl⟩
  | case2 p s after p' =>
    rename_i hp' hrun ih
    obtain ⟨q', hq', htwins⟩ := h.next hr hp'
    have hrun' : q'.isRunnable now (q.step settings now t).1.world := by
      rw [← isRunnable_part, ← htwins.part, isRunnable_part]
      exact hrun
    rw [turn_eq q, hq']
    simp only [hrun', if_true]
    exact ih htwins
  | case3 p s after p' =>
    rename_i hp' hrun
    obtain ⟨q', hq', htwins⟩ := h.next hr hp'
    have hrun' : ¬ q'.isRunnable now (q.step settings now t).1.world := by
      rw [← isRunnable_part, ← htwins.part, isRunnable_part]
      exact hrun
    rw [turn_eq q, hq']
    simp only [hrun']
    exact ⟨htwins.view, congrArg some htwins.phase.symm⟩

end Twins

end Performer

/-! ## Shares -/

/-- The parts of the performers of a sprite. -/
def partsOf (w : World) (id : SpriteId) (ps : List Performer) : List Part :=
  (ps.filter (·.id = id)).map (·.part w)

section partsOf

variable {w v : World} {id : SpriteId} {p : Performer}

theorem partsOf_append (w : World) (id : SpriteId) (ps qs : List Performer) :
    partsOf w id (ps ++ qs) = partsOf w id ps ++ partsOf w id qs := by
  rw [partsOf, List.filter_append, List.map_append, partsOf, partsOf]

theorem partsOf_cons_self (h : p.id = id) (w : World) (ps : List Performer) :
    partsOf w id (p :: ps) = p.part w :: partsOf w id ps := by
  rw [partsOf, List.filter_cons_of_pos (by simpa using h), List.map_cons, partsOf]

theorem partsOf_cons_of_ne (h : p.id ≠ id) (w : World) (ps : List Performer) :
    partsOf w id (p :: ps) = partsOf w id ps := by
  rw [partsOf, List.filter_cons_of_neg (by simpa using h), partsOf]

theorem partsOf_congr (h : ∀ p : Performer, p.part w = p.part v) (ps : List Performer) :
    partsOf w id ps = partsOf v id ps :=
  List.map_congr_left fun p _ => h p

/-- What becomes of each part of a sprite becomes of all of them. -/
theorem partsOf_eq_map {f : Part → Part} {ps : List Performer}
    (h : ∀ p ∈ ps, p.id = id → p.part w = f (p.part v)) :
    partsOf w id ps = (partsOf v id ps).map f := by
  rw [partsOf, partsOf, List.map_map]
  refine List.map_congr_left fun p hp => ?_
  obtain ⟨hp, hid⟩ := List.mem_filter.1 hp
  exact h p hp (of_decide_eq_true hid)

theorem mem_partsOf {a : Part} {ps : List Performer} :
    a ∈ partsOf w id ps ↔ ∃ p ∈ ps, p.id = id ∧ p.part w = a := by
  simp [partsOf, and_assoc]

end partsOf

/-- Where a list is split at the first element of a kind is known from the list. -/
theorem eq_of_first {α : Type} {P : α → Prop} {a b : α} (ha : P a) (hb : P b) :
    ∀ {xs xs' ys ys' : List α}, xs ++ a :: ys = xs' ++ b :: ys' → (∀ x ∈ xs, ¬ P x) →
      (∀ x ∈ xs', ¬ P x) → xs = xs' ∧ a = b ∧ ys = ys'
  | [], [], _, _, h, _, _ => ⟨rfl, List.cons.inj h⟩
  | [], x :: _, _, _, h, _, hxs' => absurd ((List.cons.inj h).1 ▸ ha) (hxs' x List.mem_cons_self)
  | x :: _, [], _, _, h, hxs, _ => absurd ((List.cons.inj h).1 ▸ hb) (hxs x List.mem_cons_self)
  | x :: xs, x' :: xs', _, _, h, hxs, hxs' => by
    obtain ⟨hx, htail⟩ := List.cons.inj h
    obtain ⟨hrest, hab⟩ := eq_of_first ha hb htail (fun y hy => hxs y (List.mem_cons_of_mem x hy))
      fun y hy => hxs' y (List.mem_cons_of_mem x' hy)
    exact ⟨by rw [hx, hrest], hab⟩

/-- What a show holds of a sprite: its view and the parts of its performers. -/
structure Share where
  view : View
  parts : List Part

/-- At a time the message is not over, and no part allows a turn. -/
structure Share.Still (now : Nat) (h : Share) : Prop where
  ends : ∀ deadline, h.view.sight.ends deadline → now < deadline
  parts : ∀ p ∈ h.parts, p.isRunnable now = false

namespace Show

def share (x : Show) (id : SpriteId) : Share :=
  ⟨x.scene.view id, partsOf x.world id x.performers⟩

/-- The host never calls back, the alarms are those of what is shown, and a sprite is not lit. -/
structure Fit (now : Nat) (id : SpriteId) (x : Show) : Prop where
  scene : x.scene.Fit now
  unlit : x.world.slots (.highlight id) = none

variable {settings : Settings} {now : Nat} {id : SpriteId} {x y x' y' : Show} {s : Scene}
  {before after : List Performer} {p : Performer}

theorem share_finishIfDone (run : RunId) (x : Show) (id : SpriteId) :
    (finishIfDone run x).share id = x.share id := by
  unfold finishIfDone
  split <;> rfl

/-- The turn of a performer of a sprite takes its part on to another phase, or out. -/
theorem share_performerTurn (hs : s.audience.waiting = []) (hp : p.id = id) :
    (performerTurn settings now before p after s).share id
      = ⟨(p.turn settings now s).1.view id, partsOf s.world id before.reverse
          ++ (((p.turn settings now s).2.map (·.phase)).map
            fun phase => { p.part s.world with phase := phase }).toList
          ++ partsOf s.world id after⟩ := by
  have hpart := Performer.part_turn settings now hs p
  unfold performerTurn
  rcases ht : p.turn settings now s with ⟨s', _ | q⟩ <;> rw [ht] at hpart
  · refine (share_finishIfDone ..).trans (congrArg (Share.mk _) ?_)
    exact (partsOf_congr hpart _).trans (by simp [partsOf_append])
  · have hrole : q.role = p.role := Performer.role_of_turn (by rw [ht])
    have hq : q.id = id := (congrArg Role.id hrole).trans hp
    refine congrArg (Share.mk _) ((partsOf_congr hpart _).trans ?_)
    rw [partsOf_append, partsOf_cons_self hq, Performer.part_of_role hrole]
    simp

/-- The turn of a performer of another sprite leaves the share of a sprite as it is. -/
theorem share_performerTurn_of_ne (hr : settings.detector.OutOfReach) (hs : s.Fit now)
    (hp : p.id ≠ id) : (performerTurn settings now before p after s).share id
      = ⟨s.view id, partsOf s.world id (before.reverse ++ p :: after)⟩ := by
  have hpart := Performer.part_turn settings now hs.quiet p
  have hview : (p.turn settings now s).1.view id = s.view id := by
    rw [Performer.turn_scene]
    refine Scene.view_performAll_of_spares hr hs fun d hd => ?_
    have hrole := Performer.role?_of_mem_turnDeeds settings now hd
    refine ⟨?_, _, hrole⟩
    cases d with
    | execute r b | mark r looping => exact (Option.some.inj hrole) ▸ hp
    | drain r | leave r => trivial
    | _ => cases hrole
  rw [partsOf_append, partsOf_cons_of_ne hp, ← partsOf_append]
  unfold performerTurn
  rcases ht : p.turn settings now s with ⟨s', _ | q⟩ <;> rw [ht] at hpart hview
  · exact (share_finishIfDone ..).trans (congrArg₂ Share.mk hview (partsOf_congr hpart _))
  · have hq : q.id ≠ id := by
      have hrole : q.role = p.role := Performer.role_of_turn (by rw [ht])
      exact (congrArg Role.id hrole).trans_ne hp
    refine congrArg₂ Share.mk hview ((partsOf_congr hpart _).trans ?_)
    rw [partsOf_append, partsOf_cons_of_ne hq, partsOf_append]

/-- The turn of the alarms leaves the parts as they are. -/
theorem parts_alarmTurn (hx : x.scene.audience.waiting = []) :
    partsOf (x.alarmTurn settings now).world id (x.alarmTurn settings now).performers
      = partsOf x.world id x.performers := by
  refine partsOf_congr (fun p => ?_) x.performers
  rw [world, alarmTurn_scene]
  refine Scene.part_performAll hx (fun d hd => ?_) p
  rcases List.mem_cons.1 hd with rfl | hd
  · exact ⟨rfl, fun _ => rfl⟩
  · obtain ⟨a, -, rfl⟩ := List.mem_map.1 hd
    exact ⟨rfl, fun _ => rfl⟩

/-! ## Turns -/

/-- A turn that is a sprite's own: its message is over, or its performer is the first one that can
take a turn. -/
inductive Acts (settings : Settings) (now : Nat) (id : SpriteId) (x : Show) : Show → Prop
  | rings (ho : x.scene.IsOver id now) : Acts settings now id x (x.alarmTurn settings now)
  | performs {before after : List Performer} {p : Performer} (ho : ¬ x.scene.IsOver id now)
      (hps : x.performers = before.reverse ++ p :: after) (hp : p.id = id)
      (hrun : p.isRunnable now x.world) (hfirst : ∀ q ∈ before, ¬ q.isRunnable now x.world) :
      Acts settings now id x (performerTurn settings now before p after x.scene)

theorem alarmIsDue_of_isOver (hx : x.scene.Fit now) (ho : x.scene.IsOver id now) :
    x.alarmIsDue now := by
  obtain ⟨table, hk⟩ := hx.kept
  obtain ⟨deadline, hle, k, ha⟩ := ho
  obtain ⟨t, ht, hnext⟩ := hk.sound.schedule.nextDeadline_le ha
  have hnext : x.world.alarms.schedule.nextDeadline.1 = some t := hnext
  rw [alarmIsDue, hnext, Option.any_some]
  exact decide_eq_true (Nat.le_trans ht hle)

/-- A turn leaves the share of a sprite as it is or is the sprite's own. -/
theorem turn_cases (hr : settings.detector.OutOfReach) (hx : x.Fit now id)
    (h : x.turn? settings now = some x') :
    x'.share id = x.share id ∨ x.Acts settings now id x' := by
  rcases turn?_cases h with ⟨-, rfl⟩ | ⟨hd, before, p, after, hps, hrun, hfirst, rfl⟩
  · by_cases ho : x.scene.IsOver id now
    · exact .inr (.rings ho)
    · exact .inl (congrArg₂ Share.mk (view_alarmTurn_of_not_over hx.scene hx.unlit ho)
        (parts_alarmTurn hx.scene.quiet))
  · have ho : ¬ x.scene.IsOver id now := fun ho =>
      Bool.eq_false_iff.1 hd (alarmIsDue_of_isOver hx.scene ho)
    by_cases hp : p.id = id
    · exact .inr (.performs ho hps hp hrun hfirst)
    · refine .inl ((share_performerTurn_of_ne hr hx.scene hp).trans ?_)
      rw [← hps]
      rfl

theorem Acts.congr (hr : settings.detector.OutOfReach) (hx : x.Fit now id) (hy : y.Fit now id)
    (h : x.share id = y.share id) (hx' : x.Acts settings now id x')
    (hy' : y.Acts settings now id y') : x'.share id = y'.share id := by
  obtain ⟨hv, hparts⟩ := Share.mk.inj h
  have hover : x.scene.IsOver id now ↔ y.scene.IsOver id now := by
    have he : x.scene.world.EndsAt id = y.scene.world.EndsAt id :=
      congrArg (fun v : View => v.sight.ends) hv
    rw [Scene.IsOver, Scene.IsOver, he]
  rcases hx' with hox | ⟨hox, hpsx, hp, hrunx, hfx⟩ <;>
    rcases hy' with hoy | ⟨hoy, hpsy, hq, hruny, hfy⟩
  · refine congrArg₂ Share.mk
      (view_alarmTurn_congr hx.scene hy.scene hx.unlit hy.unlit hv hox hoy) ?_
    rw [parts_alarmTurn hx.scene.quiet, parts_alarmTurn hy.scene.quiet, hparts]
  · exact absurd (hover.1 hox) hoy
  · exact absurd (hover.2 hoy) hox
  · have hsplit : ∀ {w : World} {bs : List Performer},
        (∀ q ∈ bs, ¬ q.isRunnable now w) →
        ∀ a ∈ partsOf w id bs.reverse, ¬ a.isRunnable now = true := by
      intro w bs hbs a ha
      obtain ⟨q, hq, -, rfl⟩ := mem_partsOf.1 ha
      exact hbs q (List.mem_reverse.1 hq)
    rw [hpsx, hpsy, partsOf_append, partsOf_append, partsOf_cons_self hp, partsOf_cons_self hq]
      at hparts
    obtain ⟨hbefore, hpart, hafter⟩ := eq_of_first (P := fun a => a.isRunnable now = true) hrunx
      hruny hparts (hsplit hfx) (hsplit hfy)
    obtain ⟨hturn, hphase⟩ := Performer.Twins.turn hr ⟨hx.scene, hy.scene, hv, hp, hq, hpart⟩
    rw [share_performerTurn hx.scene.quiet hp, share_performerTurn hy.scene.quiet hq]
    simp only [world] at hbefore hpart hafter
    rw [hturn, hphase, hbefore, hpart, hafter]

/-- When nobody can take a turn, a sprite's share is still. -/
theorem still_of_turn? (hx : x.Fit now id) (h : x.turn? settings now = none) :
    (x.share id).Still now := by
  refine ⟨fun deadline he => ?_, fun a ha => ?_⟩
  · refine Nat.lt_of_not_le fun hle => ?_
    have := alarmIsDue_of_isOver hx.scene ⟨deadline, hle, he⟩
    rw [alarmIsDue_of_turn? h] at this
    cases this
  · obtain ⟨p, hp, -, rfl⟩ := mem_partsOf.1 ha
    exact Bool.eq_false_of_not_eq_true (not_runnable_of_turn? h hp)

/-- While its share is still, a sprite has no turn of its own. -/
theorem Acts.not_still (h : x.Acts settings now id x') : ¬ (x.share id).Still now := by
  intro hs
  rcases h with ⟨deadline, hle, he⟩ | ⟨-, hps, hp, hrun, -⟩
  · exact Nat.lt_irrefl _ (Nat.lt_of_lt_of_le (hs.ends deadline he) hle)
  · have hmem : Performer.part _ x.world ∈ partsOf x.world id x.performers :=
      mem_partsOf.2 ⟨_, mem_of_around hps, hp, rfl⟩
    have := hs.parts _ hmem
    rw [Performer.isRunnable_part, hrun] at this
    cases this

end Show

end SpriteCanvas
