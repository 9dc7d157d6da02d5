import Mathlib.Logic.Relation
import SpriteCanvas.Proofs.Lifetimes
import SpriteCanvas.Proofs.Parts
import SpriteCanvas.Proofs.Patience

/-!
# Shows side by side

Two shows with the same share of a sprite have the same share after both have settled
(`Show.share_settle_congr`), however many turns of others lie in between, and after both have let
the same time pass (`Show.share_advance_congr`): one of them may wake where the other sleeps on, but
then nothing of the sprite is due.
-/

namespace SpriteCanvas

open Relation (ReflTransGen)

variable {settings : Settings} {listening : Listening} {now : Nat} {id : SpriteId}

/-! ## Shows of a session -/

/-- At a threshold out of reach nobody is struck. -/
theorem World.struck_eq_nil (hr : settings.detector.OutOfReach) (now : Nat) (w : World)
    (d : Deed) : w.struck settings now d = [] := by
  have hpairs : ∀ w : World, eachOf (w.touchingPairs settings) = [] := fun w =>
    congrArg eachOf (w.touchingPairs_eq_nil hr)
  have hwaiting : eachOf (w.waitingPairs settings) = [] :=
    congrArg eachOf (w.waitingPairs_eq_nil hr)
  cases d with
  | answer c =>
    cases c with
    | checkAll => exact hpairs w
    | drainChecks => exact hwaiting
    | _ => rfl
  | execute r b =>
    simp only [struck]
    split
    · split
      · exact hpairs _
      · rfl
    · rfl
  | drain r => exact hwaiting
  | _ => rfl

/-- What a deed itself does to the timetable lights nobody. -/
theorem Deed.retime_highlight {table : Timetable} (h : table (.highlight id) = none) (d : Deed) :
    d.retime settings now table (.highlight id) = none := by
  cases d with
  | execute r b =>
    simp only [retime, Command.retime]
    rcases b.command.speech? settings now with _ | speech
    · exact h
    · exact (Function.update_of_ne Expiry.noConfusion ..).trans h
  | answer c =>
    cases c with
    | stop => exact h
    | unregister i =>
      simp only [retime]
      split
      · rfl
      · exact h
    | _ => exact h
  | _ => exact h

/-- While nobody is struck, nobody is lit. -/
theorem Moment.Lawful.exists_kept_unlit {log : List Entry} (hr : settings.detector.OutOfReach)
    (h : Moment.start.Lawful settings log) : ∃ table : Timetable,
      (Moment.start.after settings log).world.Kept (Moment.start.after settings log).ringing
          (Moment.start.after settings log).clock table
        ∧ ∀ id, table (.highlight id) = none := by
  refine h.induction (P := fun _ n => ∃ table : Timetable,
      n.world.Kept n.ringing n.clock table ∧ ∀ id, table (.highlight id) = none)
    ⟨fun _ => none, World.kept_initial, fun _ => rfl⟩ fun e _ _ n hn ht ha => ?_
  obtain ⟨table, hk, hl⟩ := hn
  refine ⟨_, Moment.kept_perform hk ht ha, fun id => ?_⟩
  rw [World.retimed_of_struck_nil (World.struck_eq_nil hr e.time n.world e.deed)]
  exact Deed.retime_highlight (hl id) e.deed

namespace Show

/-- A show that a session with a quiet host can come to at a time. -/
def Reached (settings : Settings) (listening : Listening) (now : Nat) (x : Show) : Prop :=
  (Course.start listening []).Leads settings (Course.Orderly settings) now x

variable {x y x' y' z : Show}

theorem Reached.trans {now' : Nat} (h : x.Reached settings listening now)
    (h' : ∀ y : Course, y.clock = now → y.engine = x →
      y.Leads settings (Course.Own settings) now' x') :
    x'.Reached settings listening now' :=
  Course.Leads.trans h fun y hc he => (h' y hc he).orderly

/-- The moment that the chronicle comes to is the state of the show. -/
theorem Reached.agrees (h : x.Reached settings listening now) : ∃ log : List Entry,
    Moment.start.Lawful settings log ∧ (Moment.start.after settings log).Agrees now x := by
  obtain ⟨ms, -, rfl, rfl⟩ := h
  exact ⟨_, Course.follows_run settings listening [] ms⟩

theorem Reached.quiet (h : x.Reached settings listening now) : x.scene.audience.waiting = [] := by
  obtain ⟨ms, -, -, rfl⟩ := h
  have hstart : (Course.start listening []).engine.scene.audience.waiting = [] :=
    ite_self (c := listening = .recording) []
  exact Course.quiet_run settings hstart ms

theorem Reached.fit (hr : settings.detector.OutOfReach) (h : x.Reached settings listening now)
    (id : SpriteId) : x.Fit now id := by
  obtain ⟨log, hlaw, hagree⟩ := h.agrees
  obtain ⟨table, hk, hl⟩ := hlaw.exists_kept_unlit hr
  rw [hagree.world, hagree.ringing] at hk
  refine ⟨⟨h.quiet, table, hk.mono hagree.clock⟩, ?_⟩
  refine Option.eq_none_iff_forall_ne_some.2 fun k hs => ?_
  obtain ⟨deadline, ht, -⟩ := hk.held k _ hs
  rw [hl id] at ht
  cases ht

theorem Reached.turn (h : x.Reached settings listening now)
    (ht : x.turn? settings now = some x') : x'.Reached settings listening now := by
  refine h.trans fun y hc he => ?_
  subst hc he
  exact Course.leads_of_turn? ht

theorem Reached.settle (h : x.Reached settings listening now) :
    (x.settle settings now).Reached settings listening now :=
  h.trans fun _ hc he => Course.leads_settle hc he

/-- In a settled show time passes until something is due. -/
theorem Reached.wake {t : Nat} (h : x.Reached settings listening now)
    (hs : x.turn? settings now = none) (hw : x.nextWake? = some t) :
    x.Reached settings listening t := by
  refine h.trans fun _ hc he => ?_
  refine Course.leads_pass hc he hs (lt_of_nextWake? hs hw).le fun t' ht' => ?_
  exact (Option.some.inj (hw.symm.trans ht')).le

/-! ## Settling -/

/-- The shows that turns lead to. -/
abbrev Turns (settings : Settings) (now : Nat) : Show → Show → Prop :=
  ReflTransGen fun x x' => x.turn? settings now = some x'

theorem turns_settleWithin : ∀ (n : Nat) (x : Show),
    x.Turns settings now (x.settleWithin settings now n)
  | 0, _ => .refl
  | n + 1, x => by
    rw [settleWithin]
    split
    · rename_i x' h
      exact .head h (turns_settleWithin n x')
    · exact .refl

theorem turns_settle (x : Show) : x.Turns settings now (x.settle settings now) :=
  turns_settleWithin _ x

/-- Turns leave a share that is still. -/
theorem share_eq_of_still (hr : settings.detector.OutOfReach) (ht : x.Turns settings now x')
    (hx : x.Reached settings listening now) (hs : (x.share id).Still now) :
    x'.share id = x.share id := by
  induction ht using ReflTransGen.head_induction_on with
  | refl => rfl
  | head h _ ih =>
    rcases turn_cases hr (hx.fit hr id) h with heq | hacts
    · exact (ih (hx.turn h) (heq ▸ hs)).trans heq
    · exact absurd hs hacts.not_still

/-- Where one show takes a turn of the sprite, the other one takes it too, after some turns of
others. -/
theorem exists_acts (hr : settings.detector.OutOfReach) (ht : y.Turns settings now y')
    (hx : x.Reached settings listening now) (hy : y.Reached settings listening now)
    (h : x.share id = y.share id) (hx' : x.Acts settings now id x')
    (hy' : (y'.share id).Still now) : ∃ z : Show, z.Turns settings now y'
      ∧ z.Reached settings listening now ∧ x'.share id = z.share id := by
  induction ht using ReflTransGen.head_induction_on with
  | refl => exact absurd (h ▸ hy') hx'.not_still
  | head hturn hrest ih =>
    rcases turn_cases hr (hy.fit hr id) hturn with heq | hacts
    · exact ih (hy.turn hturn) (h.trans heq.symm)
    · exact ⟨_, hrest, hy.turn hturn, hx'.congr hr (hx.fit hr id) (hy.fit hr id) h hacts⟩

/-- Turns that lead to still shares lead from one share to one share. -/
theorem share_eq_of_turns (hr : settings.detector.OutOfReach) (htx : x.Turns settings now x')
    (hty : y.Turns settings now y') (hx : x.Reached settings listening now)
    (hy : y.Reached settings listening now) (h : x.share id = y.share id)
    (hx' : (x'.share id).Still now) (hy' : (y'.share id).Still now) :
    x'.share id = y'.share id := by
  induction htx using ReflTransGen.head_induction_on generalizing y with
  | refl => exact h.trans (share_eq_of_still hr hty hy (h ▸ hx')).symm
  | head hturn hrest ih =>
    rcases turn_cases hr (hx.fit hr id) hturn with heq | hacts
    · exact ih hty (hx.turn hturn) hy (heq.trans h)
    · obtain ⟨z, hz, hzr, heq⟩ := exists_acts hr hty hx hy h hacts hy'
      exact ih hz (hx.turn hturn) hzr heq

theorem still_of_reached (hr : settings.detector.OutOfReach)
    (hx : x.Reached settings listening now) (h : x.turn? settings now = none) :
    (x.share id).Still now :=
  still_of_turn? (hx.fit hr id) h

/-- Two shows with the same share settle to the same share. -/
theorem share_settle_congr (hr : settings.detector.OutOfReach)
    (hx : x.Reached settings listening now) (hy : y.Reached settings listening now)
    (h : x.share id = y.share id) :
    (x.settle settings now).share id = (y.settle settings now).share id :=
  share_eq_of_turns hr (turns_settle x) (turns_settle y) hx hy h
    (still_of_reached hr hx.settle (turn?_settle settings now x))
    (still_of_reached hr hy.settle (turn?_settle settings now y))

theorem share_settle_of_still (hr : settings.detector.OutOfReach)
    (hx : x.Reached settings listening now) (h : (x.share id).Still now) :
    (x.settle settings now).share id = x.share id :=
  share_eq_of_still hr (turns_settle x) hx h

/-! ## Time -/

/-- Which of two times comes first, if one of them comes until a limit. -/
theorem first_cases (limit : Nat) (o p : Option Nat) :
    (∃ t, o = some t ∧ t ≤ limit ∧ ∀ t', p = some t' → t < t')
      ∨ (∃ t, p = some t ∧ t ≤ limit ∧ ∀ t', o = some t' → t < t')
      ∨ (∃ t, o = some t ∧ p = some t ∧ t ≤ limit)
      ∨ (∀ t, o = some t → ¬ t ≤ limit) ∧ ∀ t, p = some t → ¬ t ≤ limit := by
  rcases o with _ | a <;> rcases p with _ | b <;>
    simp only [Option.some.injEq, exists_eq_left', forall_eq', reduceCtorEq, false_and,
      exists_const, false_imp_iff, implies_true, and_true, false_or, true_and, or_true]
  · omega
  · omega
  · omega

/-- Until a settled show wakes, the share of a sprite stays still. -/
theorem Still.of_lt_nextWake? {u : Nat} (hx : x.Fit now id) (h : (x.share id).Still now)
    (hw : ∀ t, x.nextWake? = some t → u < t) : (x.share id).Still u := by
  obtain ⟨table, hk⟩ := hx.scene.kept
  refine ⟨fun deadline he => ?_, fun a ha => ?_⟩
  · obtain ⟨k, ha⟩ := he
    obtain ⟨d, hd, hnext⟩ := hk.sound.schedule.nextDeadline_le ha
    obtain ⟨t, ht, hwake⟩ := foldl_earlier?_le x.performers (.inl hnext)
    exact Nat.lt_of_lt_of_le (hw t hwake) (Nat.le_trans ht hd)
  · obtain ⟨p, hp, -, rfl⟩ := mem_partsOf.1 ha
    have hstill := h.parts _ ha
    rw [Performer.isRunnable_part] at hstill ⊢
    rcases hph : p.phase with rest | l | ⟨l, wake⟩ <;> rw [Performer.isRunnable, hph] at hstill ⊢
    · exact hstill
    · exact hstill
    · have hw' : p.wake? = some wake := by rw [Performer.wake?, hph]
      obtain ⟨t, ht, hwake⟩ : ∃ t ≤ wake, x.nextWake? = some t :=
        foldl_earlier?_le x.performers (.inr ⟨p, hp, hw'⟩)
      refine Bool.or_eq_false_iff.2 ⟨decide_eq_false ?_, (Bool.or_eq_false_iff.1 hstill).2⟩
      exact Nat.not_le.2 (Nat.lt_of_lt_of_le (hw t hwake) ht)

/-- A show that a session can come to at a time, and in which nobody can take a turn then. -/
structure Rests (settings : Settings) (listening : Listening) (now : Nat) (x : Show) : Prop where
  reached : x.Reached settings listening now
  settled : x.turn? settings now = none

theorem Reached.rests (h : x.Reached settings listening now) :
    (x.settle settings now).Rests settings listening now :=
  ⟨h.settle, turn?_settle settings now x⟩

variable {limit a b t : Nat}

/-- Time passes, and the show settles again. -/
theorem Rests.wake (hx : x.Rests settings listening a) (hw : x.nextWake? = some t) :
    (x.settle settings t).Rests settings listening t :=
  (hx.reached.wake hx.settled hw).rests

/-- A show that wakes alone finds nothing of the sprite due. -/
theorem Rests.share_wake_alone (hr : settings.detector.OutOfReach)
    (hx : x.Rests settings listening a) (hy : y.Rests settings listening b)
    (h : x.share id = y.share id) (hw : x.nextWake? = some t)
    (hsleep : ∀ t', y.nextWake? = some t' → t < t') :
    (x.settle settings t).share id = y.share id := by
  have hstill : (y.share id).Still b := still_of_reached hr hy.reached hy.settled
  have hstill' := Still.of_lt_nextWake? (hy.reached.fit hr id) hstill hsleep
  have hreach := hx.reached.wake hx.settled hw
  exact (share_settle_of_still hr hreach (h ▸ hstill')).trans h

theorem passUntil_of_wake (hw : x.nextWake? = some t) (ha : a < t) (ht : t ≤ limit) :
    x.passUntil settings (fun _ => false) limit a
      = (x.settle settings t).passUntil settings (fun _ => false) limit t := by
  rw [passUntil]
  simp only [Bool.false_eq_true, if_false, hw, ha, ht, and_self, dif_pos]

theorem passUntil_of_sleep (h : ∀ t, x.nextWake? = some t → ¬ t ≤ limit) :
    x.passUntil settings (fun _ => false) limit a = (limit, x) := by
  rw [passUntil]
  simp only [Bool.false_eq_true, if_false]
  split
  · rename_i t ht
    rw [dif_neg fun hle => h t ht hle.2]
  · rfl

theorem fst_passUntil (hx : x.Rests settings listening a) (ha : a ≤ limit) :
    (x.passUntil settings (fun _ => false) limit a).1 = limit := by
  fun_induction passUntil settings (fun _ => false) limit a x with
  | case1 a x hd => cases hd
  | case2 a x hd t hw ht ih =>
    exact ih (hx.wake hw) ht.2
  | case3 => rfl
  | case4 => rfl

/-- Two shows with the same share have the same share when the same time has come, whenever each of
them wakes until then. -/
theorem share_passUntil_congr (hr : settings.detector.OutOfReach) (ha : a ≤ limit)
    (hb : b ≤ limit) (hx : x.Rests settings listening a) (hy : y.Rests settings listening b)
    (h : x.share id = y.share id) :
    (x.passUntil settings (fun _ => false) limit a).2.share id
      = (y.passUntil settings (fun _ => false) limit b).2.share id := by
  induction hn : (limit - a) + (limit - b) using Nat.strong_induction_on
    generalizing a b x y with
  | h n ih =>
    -- The one that wakes first goes on; if both wake at one time, both do.
    rcases first_cases limit x.nextWake? y.nextWake? with
      ⟨t, hw, ht, hsleep⟩ | ⟨t, hw, ht, hsleep⟩ | ⟨t, hwx, hwy, ht⟩ | ⟨hsx, hsy⟩
    · have hlt := lt_of_nextWake? hx.settled hw
      rw [passUntil_of_wake hw hlt ht]
      exact ih _ (by omega) ht hb (hx.wake hw) hy (hx.share_wake_alone hr hy h hw hsleep) rfl
    · have hlt := lt_of_nextWake? hy.settled hw
      rw [passUntil_of_wake hw hlt ht]
      exact ih _ (by omega) ha ht hx (hy.wake hw)
        (hy.share_wake_alone hr hx h.symm hw hsleep).symm rfl
    · have hltx := lt_of_nextWake? hx.settled hwx
      have hlty := lt_of_nextWake? hy.settled hwy
      rw [passUntil_of_wake hwx hltx ht, passUntil_of_wake hwy hlty ht]
      refine ih _ (by omega) ht ht (hx.wake hwx) (hy.wake hwy) ?_ rfl
      exact share_settle_congr hr (hx.reached.wake hx.settled hwx)
        (hy.reached.wake hy.settled hwy) h
    · rw [passUntil_of_sleep hsx, passUntil_of_sleep hsy]
      exact h

/-- Two shows with the same share have the same share after the same time. -/
theorem share_advance_congr (hr : settings.detector.OutOfReach)
    (hx : x.Reached settings listening now) (hy : y.Reached settings listening now)
    (h : x.share id = y.share id) (duration : Nat) :
    (x.advance settings now duration).2.share id = (y.advance settings now duration).2.share id :=
  share_passUntil_congr hr (Nat.le_add_right now duration) (Nat.le_add_right now duration) hx.rests
    hy.rests (share_settle_congr hr hx hy h)

theorem fst_advance (hx : x.Reached settings listening now) (duration : Nat) :
    (x.advance settings now duration).1 = now + duration :=
  fst_passUntil hx.rests (Nat.le_add_right now duration)

end Show

end SpriteCanvas
