import SpriteCanvas.Proofs.Requests

/-!
# Noninterference

At a threshold out of reach, sprites do not touch each other's lives.  If a session plays at most
once, lets time pass only in steps that advance and has a host that never calls back, then a sprite
is the same without all that concerns only other sprites: it looks the same after every step, and
the host hears the same of it at the same times (`Session.undisturbed`).
-/

namespace SpriteCanvas

variable {settings : Settings} {listening : Listening} {id : SpriteId}

/-! ## Steps -/

/-- Whether a call concerns other sprites only, or has sprites checked. -/
def Call.isAside (id : SpriteId) : Call → Bool
  | .register i _ _ _ | .unregister i | .setPosition i _ | .setScript i _ | .refresh i
  | .queueCheck i => i ≠ id
  | .checkAll | .drainChecks => true
  | _ => false

theorem Call.passesBy_of_isAside {c : Call} (h : c.isAside id) : (Deed.answer c).PassesBy id := by
  have hne : ∀ {i : SpriteId}, decide (i ≠ id) = true → some i ≠ some id := fun h hs =>
    of_decide_eq_true h (Option.some.inj hs)
  cases c with
  | register i position script target => exact ⟨hne h, nofun⟩
  | unregister i => exact ⟨hne h, nofun⟩
  | setPosition i position => exact ⟨hne h, nofun⟩
  | setScript i script => exact ⟨hne h, nofun⟩
  | refresh i => exact ⟨hne h, nofun⟩
  | queueCheck i => exact ⟨hne h, nofun⟩
  | checkAll => exact ⟨nofun, nofun⟩
  | drainChecks => exact ⟨nofun, nofun⟩
  | _ => cases h

/-- A call that is not made aside is about the sprite, or a stop, or asks something. -/
theorem Call.cases_of_not_aside {c : Call} (h : c.isAside id = false) :
    (c.subject? = some id ∨ c = .stop) ∨ (Deed.answer c).PassesBy id := by
  have hid : ∀ {i : SpriteId}, decide (i ≠ id) = false → some i = some id := fun h =>
    congrArg some (not_not.1 (of_decide_eq_false h))
  cases c with
  | register i position script target => exact .inl (.inl (hid h))
  | unregister i => exact .inl (.inl (hid h))
  | setPosition i position => exact .inl (.inl (hid h))
  | setScript i script => exact .inl (.inl (hid h))
  | refresh i => exact .inl (.inl (hid h))
  | queueCheck i => exact .inl (.inl (hid h))
  | stop => exact .inl (.inr rfl)
  | checkAll => cases h
  | drainChecks => cases h
  | _ => exact .inr ⟨nofun, nofun⟩

namespace Action

/-- Whether an action concerns other sprites only, or has sprites checked. -/
def isAside (id : SpriteId) : Action → Bool
  | .call c => c.isAside id
  | _ => false

def isSpawn : Action → Bool
  | .spawnPlay => true
  | _ => false

/-- How many actions ask to play. -/
def plays (as : List Action) : Nat := as.countP (·.isSpawn)

theorem plays_append (as bs : List Action) : plays (as ++ bs) = plays as + plays bs :=
  List.countP_append

theorem plays_cons (a : Action) (as : List Action) : plays (a :: as) = plays [a] + plays as :=
  plays_append [a] as

theorem plays_of_isAside {a : Action} (h : a.isAside id) : plays [a] = 0 := by
  cases a with
  | call c => rfl
  | spawnPlay => cases h
  | finished n => cases h

end Action

namespace Step

/-- The actions that a step takes. -/
def actions : Step → List Action
  | .action a => [a]
  | .atomic as => as
  | _ => []

/-- Whether a step waits for the end of a play. -/
def waits : Step → Bool
  | .join _ | .play => true
  | _ => false

/-- A step without the actions that concern other sprites only; none if nothing else is in it. -/
def without (id : SpriteId) : Step → Option Step
  | .action a => if a.isAside id then none else some (.action a)
  | .atomic as =>
    if as.all (·.isAside id) then none else some (.atomic (as.filter (! ·.isAside id)))
  | st => some st

end Step

/-- When an event came that was recorded in a step that began at a time: an update says so itself,
and the other events come with actions, which take no time. -/
def Event.time (start : Nat) : Event → Nat
  | .update _ time => time
  | .removed _ _ | .reaction _ => start

namespace Session

/-- What a host sees of a sprite. -/
def snapshot? (x : Session) (id : SpriteId) : Option Snapshot :=
  (x.engine.world.cast.find? id).map (·.figure.snapshot)

/-- What the host has heard of a sprite so far, in order. -/
def heardOf (x : Session) (id : SpriteId) : List Event :=
  (x.engine.scene.audience.heardOf id).reverse

/-- What the host hears of a sprite in a step, in order and with the times at which it comes. -/
def hearing (id : SpriteId) (x : Session) (st : Step) : List (Nat × Event) :=
  (((x.step st).2.heardOf id).drop (x.heardOf id).length).map fun e => (e.time x.clock, e)

/-- What the host hears of a sprite in steps. -/
def hearings (id : SpriteId) : Session → List Step → List (Nat × Event)
  | _, [] => []
  | x, st :: steps => x.hearing id st ++ hearings id (x.step st).2 steps

/-- A session with some settings whose host is quiet. -/
structure Sound (settings : Settings) (listening : Listening) (x : Session) : Prop where
  settings_eq : x.settings = settings
  reached : x.engine.Reached settings listening x.clock

/-- Two sessions that are at one time and have the same share of a sprite. -/
structure Alike (id : SpriteId) (x y : Session) : Prop where
  clock : x.clock = y.clock
  share : x.engine.share id = y.engine.share id

/-- The number of runs that have begun. -/
def begun (x : Session) : Nat := x.engine.world.runs.begun

variable {x y z : Session}

theorem Sound.reaches (h : x.Sound settings listening) (hy : x.Reaches y) :
    y.Sound settings listening where
  settings_eq := hy.1.trans h.settings_eq
  reached := Course.Leads.trans h.reached fun c hc he => h.settings_eq ▸ hy.2 c ⟨hc, he⟩

theorem sound_new (settings : Settings) (listening : Listening) :
    (new settings listening []).Sound settings listening :=
  ⟨rfl, .refl rfl rfl⟩

namespace Alike

theorem trans (h : x.Alike id y) (h' : y.Alike id z) : x.Alike id z :=
  ⟨h.clock.trans h'.clock, h.share.trans h'.share⟩

theorem heardOf (h : x.Alike id y) : x.heardOf id = y.heardOf id :=
  congrArg (fun s : Share => s.view.heard.reverse) h.share

theorem snapshot? (h : x.Alike id y) : x.snapshot? id = y.snapshot? id := by
  have hlook : ∀ x : Session,
      x.snapshot? id = (x.engine.share id).view.sight.look.map (·.2.2) := by
    intro x
    show _ = (Option.map Member.look _).map _
    rw [Option.map_map]
    rfl
  rw [hlook, hlook, h.share]

end Alike

/-! ### What is heard -/

theorem heardOf_run {x : Course} (h : x.engine.scene.audience.waiting = []) (ms : List Move)
    (id : SpriteId) : x.engine.scene.audience.heardOf id
      <:+ (x.run settings ms).engine.scene.audience.heardOf id := by
  refine (Course.run_induction settings x (P := fun y => y.engine.scene.audience.waiting = []
    ∧ x.engine.scene.audience.heardOf id <:+ y.engine.scene.audience.heardOf id)
    ⟨h, List.suffix_rfl⟩ (fun y m hy => ?_) ms).2
  rw [Course.move_scene]
  exact ⟨Scene.waiting_performAll settings y.clock _ hy.1,
    hy.2.trans (Scene.heardOf_performAll _ hy.1)⟩

/-- What the host has heard of a sprite stays heard. -/
theorem Sound.heardOf_step (h : x.Sound settings listening) (st : Step) (id : SpriteId) :
    x.heardOf id <+: (x.step st).2.heardOf id := by
  obtain ⟨ms, -, -, he⟩ := (reaches_step x st).2 ⟨x.clock, x.engine, []⟩ ⟨rfl, rfl⟩
  refine List.reverse_prefix.2 ?_
  rw [← he]
  exact heardOf_run (x := ⟨x.clock, x.engine, []⟩) h.reached.quiet ms id

/-- The hearings of steps are all that the host hears in them. -/
theorem Sound.heardOf_stepAll (h : x.Sound settings listening) (id : SpriteId)
    (steps : List Step) :
    (x.stepAll steps).heardOf id = x.heardOf id ++ (hearings id x steps).map (·.2) := by
  induction steps generalizing x with
  | nil => exact (List.append_nil _).symm
  | cons st steps ih =>
    obtain ⟨es, hes⟩ := h.heardOf_step st id
    have hnew : (x.hearing id st).map (·.2) = es := by
      rw [hearing, ← hes, List.drop_left, List.map_map]
      exact List.map_id es
    refine (ih (h.reaches (reaches_step x st))).trans ?_
    rw [hearings, List.map_append, hnew, ← hes, List.append_assoc]

/-! ### Sessions side by side -/

theorem begun_act_le (x : Session) (a : Action) :
    (x.act a).2.begun ≤ x.begun + Action.plays [a] := by
  cases a with
  | call c => exact Nat.le_of_eq (Show.begun_call x.engine c)
  | spawnPlay =>
    show x.request.2.begun ≤ x.begun + 1
    unfold request
    split
    · exact Nat.le_succ _
    · rename_i run engine h
      exact Nat.le_of_eq (Show.begun_play? h)
  | finished n => exact Nat.le_refl _

theorem Sound.engine_call (h : x.Sound settings listening) (c : Call) :
    (x.act (.call c)).2.engine = (x.engine.call settings x.clock c).2 := by
  rw [← h.settings_eq]
  rfl

theorem Sound.engine_settle (h : x.Sound settings listening) :
    x.settle.engine = x.engine.settle settings x.clock := by
  rw [← h.settings_eq]
  rfl

theorem Sound.take_advance (h : x.Sound settings listening) (duration : Nat) :
    (x.take (.advance duration)).2.clock = x.clock + duration
      ∧ (x.take (.advance duration)).2.engine
        = (x.engine.advance settings x.clock duration).2 := by
  have hc := Show.fst_advance h.reached duration
  rw [← h.settings_eq] at hc ⊢
  exact ⟨hc, rfl⟩

/-- Two sessions go side by side if a sprite is alike in them, and neither will have begun more
than one run after so many plays. -/
structure Abreast (settings : Settings) (listening : Listening) (id : SpriteId) (plays : Nat)
    (x y : Session) : Prop where
  left : x.Sound settings listening
  right : y.Sound settings listening
  alike : x.Alike id y
  left_once : x.begun + plays ≤ 1
  right_once : y.begun + plays ≤ 1

namespace Abreast

variable {n : Nat} {a : Action} {st st' : Step}

theorem right_reached (h : x.Abreast settings listening id n y) :
    y.engine.Reached settings listening x.clock :=
  h.alike.clock ▸ h.right.reached

theorem begun_act (h : x.begun + (Action.plays [a] + n) ≤ 1) : (x.act a).2.begun + n ≤ 1 :=
  (Nat.add_le_add_right (begun_act_le x a) n).trans (Nat.add_assoc .. ▸ h)

/-- An action that concerns other sprites only does nothing to a sprite. -/
theorem act_left (hr : settings.detector.OutOfReach)
    (h : x.Abreast settings listening id n y) (ha : a.isAside id) :
    (x.act a).2.Abreast settings listening id n y where
  left := h.left.reaches (reaches_act x a)
  right := h.right
  alike := by
    refine Alike.trans ?_ h.alike
    cases a with
    | call c =>
      refine ⟨rfl, ?_⟩
      rw [h.left.engine_call c]
      exact Show.share_call_of_passesBy hr h.left.reached (Call.passesBy_of_isAside ha)
    | spawnPlay => cases ha
    | finished k => cases ha
  left_once := by
    refine begun_act ?_
    rw [Action.plays_of_isAside ha, Nat.zero_add]
    exact h.left_once
  right_once := h.right_once

theorem alike_request (h : x.Abreast settings listening id (n + 1) y) :
    x.request.2.Alike id y.request.2 := by
  have hbx : x.begun = 0 := by have := h.left_once; omega
  have hby : y.begun = 0 := by have := h.right_once; omega
  obtain ⟨run, x', hx, hsx⟩ := h.left.reached.share_play? hbx
  obtain ⟨run', y', hy, hsy⟩ := h.right.reached.share_play? hby
  have hview : x.engine.scene.view id = y.engine.scene.view id :=
    congrArg Share.view h.alike.share
  simp only [request, hx, hy]
  refine ⟨h.alike.clock, hsx.trans (.trans ?_ hsy.symm)⟩
  exact congrArg (fun v : View =>
    Share.mk v (v.sight.look.map fun l => Part.joining l.2.1).toList) hview

/-- Any other action does the same in both sessions. -/
theorem act (hr : settings.detector.OutOfReach)
    (h : x.Abreast settings listening id (Action.plays [a] + n) y) (ha : a.isAside id = false) :
    (x.act a).2.Abreast settings listening id n (y.act a).2 where
  left := h.left.reaches (reaches_act x a)
  right := h.right.reaches (reaches_act y a)
  alike := by
    cases a with
    | call c =>
      refine ⟨h.alike.clock, ?_⟩
      rw [h.left.engine_call c, h.right.engine_call c, ← h.alike.clock]
      rcases Call.cases_of_not_aside ha with hc | hc
      · exact Show.share_call_congr hr h.left.reached h.right_reached h.alike.share hc
      · rw [Show.share_call_of_passesBy hr h.left.reached hc,
          Show.share_call_of_passesBy hr h.right_reached hc, h.alike.share]
    | spawnPlay => exact alike_request (Nat.add_comm 1 n ▸ h)
    | finished k => exact h.alike
  left_once := begun_act h.left_once
  right_once := begun_act h.right_once

theorem actAll (hr : settings.detector.OutOfReach) : ∀ (as : List Action) {x y : Session},
    x.Abreast settings listening id (Action.plays as + n) y →
    (Session.actAll as x).2.Abreast settings listening id n
      (Session.actAll (as.filter fun a => !a.isAside id) y).2
  | [], _, _, h => by
    rw [Action.plays, List.countP_nil, Nat.zero_add] at h
    exact h
  | a :: as, x, y, h => by
    rw [Action.plays_cons, Nat.add_assoc] at h
    rcases ha : a.isAside id with _ | _
    · rw [List.filter_cons_of_pos (by rw [ha]; rfl)]
      exact actAll hr as (h.act hr ha)
    · rw [List.filter_cons_of_neg (by rw [ha]; exact Bool.false_ne_true)]
      rw [Action.plays_of_isAside ha, Nat.zero_add] at h
      exact actAll hr as (h.act_left hr ha)

theorem settle (hr : settings.detector.OutOfReach) (h : x.Abreast settings listening id n y) :
    x.settle.Abreast settings listening id n y.settle where
  left := h.left.reaches (reaches_settle x)
  right := h.right.reaches (reaches_settle y)
  alike := by
    refine ⟨h.alike.clock, ?_⟩
    rw [h.left.engine_settle, h.right.engine_settle, ← h.alike.clock]
    exact Show.share_settle_congr hr h.left.reached h.right_reached h.alike.share
  left_once := (congrArg (· + n) (Show.begun_settle x.engine)).trans_le h.left_once
  right_once := (congrArg (· + n) (Show.begun_settle y.engine)).trans_le h.right_once

/-- Settling does nothing to a sprite that is as in a settled session. -/
theorem settle_left (hr : settings.detector.OutOfReach)
    (h : x.Abreast settings listening id n y) (hs : y.engine.turn? settings y.clock = none) :
    x.settle.Abreast settings listening id n y where
  left := h.left.reaches (reaches_settle x)
  right := h.right
  alike := by
    have hstill : (y.engine.share id).Still y.clock := Show.still_of_reached hr h.right.reached hs
    refine ⟨h.alike.clock, ?_⟩
    rw [h.left.engine_settle]
    refine (Show.share_settle_of_still hr h.left.reached ?_).trans h.alike.share
    rw [h.alike.share, h.alike.clock]
    exact hstill
  left_once := (congrArg (· + n) (Show.begun_settle x.engine)).trans_le h.left_once
  right_once := h.right_once

theorem advance (hr : settings.detector.OutOfReach) (h : x.Abreast settings listening id n y)
    (duration : Nat) : (x.take (.advance duration)).2.Abreast settings listening id n
      (y.take (.advance duration)).2 where
  left := h.left.reaches (reaches_take x _)
  right := h.right.reaches (reaches_take y _)
  alike := by
    obtain ⟨hcx, hx⟩ := h.left.take_advance duration
    obtain ⟨hcy, hy⟩ := h.right.take_advance duration
    constructor
    · rw [hcx, hcy, h.alike.clock]
    · rw [hx, hy, ← h.alike.clock]
      exact Show.share_advance_congr hr h.left.reached h.right_reached h.alike.share duration
  left_once := (congrArg (· + n) (Show.begun_advance duration x.engine)).trans_le h.left_once
  right_once := (congrArg (· + n) (Show.begun_advance duration y.engine)).trans_le h.right_once

/-- A step that is left without anything does nothing to a sprite. -/
theorem step_left (hr : settings.detector.OutOfReach)
    (h : x.Abreast settings listening id (Action.plays st.actions + n) y)
    (hs : y.engine.turn? settings y.clock = none) (hst : st.without id = none) :
    (x.step st).2.Abreast settings listening id n y := by
  refine settle_left hr ?_ hs
  cases st with
  | action a =>
    simp only [Step.without, ite_eq_left_iff, reduceCtorEq, imp_false, not_not] at hst
    rw [Step.actions, Action.plays_of_isAside hst, Nat.zero_add] at h
    exact h.act_left hr hst
  | atomic as =>
    simp only [Step.without, ite_eq_left_iff, reduceCtorEq, imp_false, not_not] at hst
    have hnil : as.filter (fun a => !a.isAside id) = [] := by
      simpa [List.filter_eq_nil_iff] using hst
    have ha := actAll hr as h
    rw [hnil] at ha
    exact ha
  | _ => cases hst

/-- A step does the same to a sprite as without the actions that concern other sprites only. -/
theorem step (hr : settings.detector.OutOfReach)
    (h : x.Abreast settings listening id (Action.plays st.actions + n) y)
    (hw : st.waits = false) (hst : st.without id = some st') :
    (x.step st).2.Abreast settings listening id n (y.step st').2 := by
  refine settle hr ?_
  cases st with
  | action a =>
    simp only [Step.without, Option.ite_none_left_eq_some, Bool.not_eq_true] at hst
    obtain ⟨ha, hst⟩ := hst
    cases hst
    exact h.act hr ha
  | atomic as =>
    simp only [Step.without, Option.ite_none_left_eq_some] at hst
    obtain ⟨-, hst⟩ := hst
    cases hst
    exact actAll hr as h
  | advance duration =>
    cases hst
    have h : x.Abreast settings listening id (0 + n) y := h
    exact advance hr (Nat.zero_add n ▸ h) duration
  | join k => cases hw
  | play => cases hw

/-- Steps do the same to a sprite, and tell the same of it, as without all that concerns other
sprites only. -/
theorem stepAll (hr : settings.detector.OutOfReach) : ∀ (steps : List Step) {x y : Session},
    x.Abreast settings listening id (Action.plays (steps.flatMap Step.actions)) y →
    y.engine.turn? settings y.clock = none → (∀ st ∈ steps, st.waits = false) →
    (x.stepAll steps).Alike id (y.stepAll (steps.filterMap (Step.without id)))
      ∧ hearings id x steps = hearings id y (steps.filterMap (Step.without id))
  | [], _, _, h, _, _ => ⟨h.alike, rfl⟩
  | st :: steps, x, y, h, hs, hw => by
    rw [List.flatMap_cons, Action.plays_append] at h
    obtain ⟨hst, hrest⟩ := List.forall_mem_cons.1 hw
    have hheard := h.alike.heardOf
    rcases hwithout : st.without id with _ | st'
    · have hstep := h.step_left hr hs hwithout
      obtain ⟨halike, hhear⟩ := stepAll hr steps hstep hs hrest
      rw [List.filterMap_cons_none hwithout]
      refine ⟨halike, ?_⟩
      have hnil : x.hearing id st = [] := by
        rw [hearing, hstep.alike.heardOf, hheard, List.drop_length, List.map_nil]
      rw [hearings, hnil, List.nil_append, hhear]
    · have hstep := h.step hr hst hwithout
      have hs' : (y.step st').2.engine.turn? settings (y.step st').2.clock = none := by
        have := turn?_step y st'
        rwa [hstep.right.settings_eq] at this
      obtain ⟨halike, hhear⟩ := stepAll hr steps hstep hs' hrest
      rw [List.filterMap_cons_some hwithout]
      refine ⟨halike, ?_⟩
      have hsame : x.hearing id st = y.hearing id st' := by
        rw [hearing, hearing, hstep.alike.heardOf, hheard, h.alike.clock]
      rw [hearings, hearings, hsame, hhear]

end Abreast

/-- At a threshold out of reach, a session that plays at most once, lets time pass only in steps
that advance and has a host that never calls back is the same to a sprite without what concerns
only other sprites: after as many of the steps as one likes the sprite looks the same, and the host
has heard the same of it at the same times, which is all that it has heard of it. -/
theorem undisturbed {settings : Settings} (hr : settings.detector.OutOfReach)
    (listening : Listening) (id : SpriteId) {steps : List Step}
    (hplays : Action.plays (steps.flatMap Step.actions) ≤ 1)
    (hwaits : ∀ st ∈ steps, st.waits = false) {first : List Step} (hfirst : first <+: steps) :
    ((new settings listening []).stepAll first).snapshot? id
        = ((new settings listening []).stepAll (first.filterMap (Step.without id))).snapshot? id
      ∧ hearings id (new settings listening []) first
        = hearings id (new settings listening []) (first.filterMap (Step.without id))
      ∧ (hearings id (new settings listening []) first).map (·.2)
        = ((new settings listening []).stepAll first).heardOf id := by
  obtain ⟨rest, rfl⟩ := hfirst
  rw [List.flatMap_append, Action.plays_append] at hplays
  have hsound := sound_new settings listening
  have hbegun : (new settings listening []).begun = 0 := rfl
  have hstart : (new settings listening []).Abreast settings listening id
      (Action.plays (first.flatMap Step.actions)) (new settings listening []) := by
    refine ⟨hsound, hsound, ⟨rfl, rfl⟩, ?_, ?_⟩ <;>
      rw [hbegun, Nat.zero_add] <;> exact Nat.le_of_add_right_le hplays
  obtain ⟨halike, hhear⟩ := hstart.stepAll hr first (turn?_stepAll settings listening [] [])
    fun st hst => hwaits st (List.mem_append_left rest hst)
  exact ⟨halike.snapshot?, hhear, (hsound.heardOf_stepAll id first).symm⟩

/-- A neighbour is there when a run begins, and leaves in the middle of it. -/
theorem undisturbed_by_neighbour : ∃ settings shared alone,
    settings = { Settings.default with threshold := 0 }
      ∧ shared = [.action (.call (.register "b" .center [⟨"1", .think "hm" 2⟩] "u")),
        .action (.call (.register "a" .center [⟨"1", .turn 90⟩, ⟨"2", .say "hi" 1⟩] "t")),
        .action .spawnPlay, .advance 1, .atomic [.call .checkAll, .call (.unregister "b")],
        .advance 2000000000]
      ∧ alone = [
        .action (.call (.register "a" .center [⟨"1", .turn 90⟩, ⟨"2", .say "hi" 1⟩] "t")),
        .action .spawnPlay, .advance 1, .advance 2000000000]
      ∧ ((new settings .recording []).stepAll shared).snapshot? "a"
        = ((new settings .recording []).stepAll alone).snapshot? "a"
      ∧ hearings "a" (new settings .recording []) shared
        = hearings "a" (new settings .recording []) alone
      ∧ (hearings "a" (new settings .recording []) shared).map (·.2)
        = ((new settings .recording []).stepAll shared).heardOf "a" :=
  ⟨_, _, _, rfl, rfl, rfl, undisturbed (.inr (Binary64.le_iff.2 rfl)) .recording "a" (by decide)
    (by simp [Step.waits]) List.prefix_rfl⟩

end Session

end SpriteCanvas
