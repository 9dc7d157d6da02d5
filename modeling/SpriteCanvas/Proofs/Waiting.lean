import SpriteCanvas.Proofs.Moment

/-!
# Who waits for a check

The queue of waiting checks changes in three ways: a sprite that does not wait joins at the end, the
first one is served, and one is withdrawn with its registration.  Each deed comes to a list of these
(`World.deals_perform`), and so does a chronicle (`Moment.deals_after`).  Such a list is a ledger:
who waits is who has joined since it was last served or withdrawn, in the order of joining, each
joining is ended once or not yet, and the first in that order is served (`CheckQueue.Deals.ledger`).
-/

namespace SpriteCanvas

/-- What can happen to a sprite in the queue of waiting checks. -/
inductive Dealing where
  /-- The sprite did not wait and is put at the end. -/
  | joined (id : SpriteId)
  /-- The sprite was the first and is taken out to be checked. -/
  | served (id : SpriteId)
  /-- The sprite waited somewhere and is taken out with its registration. -/
  | withdrawn (id : SpriteId)
  deriving DecidableEq

namespace Dealing

def id : Dealing → SpriteId
  | joined id | served id | withdrawn id => id

/-- The wait of a sprite ends. -/
def Ends (d : Dealing) (id : SpriteId) : Prop := d = served id ∨ d = withdrawn id

instance (d : Dealing) (id : SpriteId) : Decidable (d.Ends id) :=
  inferInstanceAs (Decidable (_ ∨ _))

/-- The wait of a sprite ends at some time. -/
def Ended (ds : List Dealing) (id : SpriteId) : Prop := ∃ d ∈ ds, d.Ends id

instance (ds : List Dealing) (id : SpriteId) : Decidable (Ended ds id) :=
  inferInstanceAs (Decidable (∃ d ∈ ds, d.Ends id))

/-- Who has joined and whose wait has not ended since, in the order of joining. -/
def outstanding : List Dealing → List SpriteId
  | [] => []
  | joined id :: ds => if Ended ds id then outstanding ds else id :: outstanding ds
  | served _ :: ds | withdrawn _ :: ds => outstanding ds

variable {d : Dealing} {ds : List Dealing} {i j : SpriteId}

theorem ended_cons : Ended (d :: ds) i ↔ d.Ends i ∨ Ended ds i := by
  simp [Ended]

theorem ended_joined : Ended (joined j :: ds) i ↔ Ended ds i := by
  simp [ended_cons, Ends]

theorem ended_served : Ended (served j :: ds) i ↔ j = i ∨ Ended ds i := by
  simp [ended_cons, Ends]

theorem ended_withdrawn : Ended (withdrawn j :: ds) i ↔ j = i ∨ Ended ds i := by
  simp [ended_cons, Ends]

theorem joined_or_ends (d : Dealing) : d = joined d.id ∨ d.Ends d.id := by
  cases d with
  | joined i => exact .inl rfl
  | served i => exact .inr (.inl rfl)
  | withdrawn i => exact .inr (.inr rfl)

theorem mem_outstanding (h : joined i ∈ ds) (hd : ¬ Ended ds i) : i ∈ outstanding ds := by
  induction ds with
  | nil => cases h
  | cons d ds ih =>
    have hds : ¬ Ended ds i := fun he => hd (ended_cons.2 (.inr he))
    rcases List.mem_cons.1 h with rfl | h
    · rw [outstanding, if_neg hds]
      exact List.mem_cons_self
    · have hi := ih h hds
      cases d with
      | joined j =>
        rw [outstanding]
        split
        · exact hi
        · exact List.mem_cons_of_mem j hi
      | _ => exact hi

/-- Who is outstanding has joined, and nothing has happened to it since. -/
theorem exists_joined (h : i ∈ outstanding ds) :
    ∃ before mid, ds = before ++ joined i :: mid ∧ ∀ d ∈ mid, d.id ≠ i := by
  induction ds with
  | nil => cases h
  | cons d ds ih =>
    by_cases hi : i ∈ outstanding ds
    · obtain ⟨before, mid, rfl, hmid⟩ := ih hi
      exact ⟨d :: before, mid, rfl, hmid⟩
    · cases d with
      | joined j =>
        rw [outstanding] at h
        split at h
        · exact absurd h hi
        · rename_i hends
          obtain rfl := (List.mem_cons.1 h).resolve_right hi
          refine ⟨[], ds, rfl, ?_⟩
          rintro d hd rfl
          rcases d.joined_or_ends with hj | he
          · exact hi (mem_outstanding (hj ▸ hd) hends)
          · exact hends ⟨d, hd, he⟩
      | _ => exact absurd h hi

end Dealing

namespace CheckQueue

open Dealing

variable {q q' q'' : CheckQueue} {ds es : List Dealing} {id : SpriteId}

theorem waiting_of_push (h : q.push id = (true, q')) :
    id ∉ q.waiting ∧ q'.waiting = q.waiting ++ [id] := by
  unfold push at h
  split at h
  · cases h
  · rename_i hid
    cases h
    exact ⟨hid, rfl⟩

theorem push_of_not_mem (h : id ∉ q.waiting) : q.push id = (true, (q.push id).2) := by
  simp [push, h]

theorem mem_push_self (q : CheckQueue) (id : SpriteId) : id ∈ (q.push id).2.waiting := by
  unfold push
  split
  · assumption
  · simp

theorem push_of_mem (h : id ∈ q.waiting) : q.push id = (false, q) := by
  simp [push, h]

/-- What is dealt leads from one queue to another. -/
inductive Deals : CheckQueue → List Dealing → CheckQueue → Prop
  | nil (q : CheckQueue) : Deals q [] q
  | join {q q' q'' : CheckQueue} {id : SpriteId} {ds : List Dealing}
      (h : q.push id = (true, q')) (rest : Deals q' ds q'') : Deals q (.joined id :: ds) q''
  | serve {q q' q'' : CheckQueue} {id : SpriteId} {ds : List Dealing}
      (h : q.pop = (some id, q')) (rest : Deals q' ds q'') : Deals q (.served id :: ds) q''
  | withdraw {q q'' : CheckQueue} {id : SpriteId} {ds : List Dealing}
      (h : id ∈ q.waiting) (rest : Deals (q.remove id) ds q'') : Deals q (.withdrawn id :: ds) q''

namespace Deals

theorem append (h : Deals q ds q') (h' : Deals q' es q'') : Deals q (ds ++ es) q'' := by
  induction h with
  | nil q => exact h'
  | join hpush _ ih => exact .join hpush (ih h')
  | serve hpop _ ih => exact .serve hpop (ih h')
  | withdraw hid _ ih => exact .withdraw hid (ih h')

theorem split (h : Deals q (ds ++ es) q'') : ∃ q', Deals q ds q' ∧ Deals q' es q'' := by
  induction ds generalizing q with
  | nil => exact ⟨q, .nil q, h⟩
  | cons d ds ih =>
    cases h with
    | join hpush rest => exact (ih rest).imp fun _ hq => ⟨.join hpush hq.1, hq.2⟩
    | serve hpop rest => exact (ih rest).imp fun _ hq => ⟨.serve hpop hq.1, hq.2⟩
    | withdraw hid rest => exact (ih rest).imp fun _ hq => ⟨.withdraw hid hq.1, hq.2⟩

/-- Who waits in the end waited before and its wait has not ended, or is outstanding. -/
theorem waiting_eq (h : Deals q ds q') :
    q'.waiting = (q.waiting.filter fun id => ¬ Ended ds id) ++ outstanding ds := by
  induction h with
  | nil q =>
    rw [outstanding, List.append_nil]
    exact (List.filter_eq_self.2 fun _ _ => by simp [Ended]).symm
  | @join q q' q'' id ds hpush _ ih =>
    obtain ⟨-, hq'⟩ := waiting_of_push hpush
    rw [ih, hq', List.filter_append, List.append_assoc]
    simp only [ended_joined, outstanding]
    congr 1
    by_cases he : Ended ds id <;> simp [he]
  | @serve q q' q'' id ds hpop _ ih =>
    have hq := waiting_of_pop_some hpop
    -- Nobody waits twice, so nobody behind the first is filtered out with it.
    have hid : id ∉ q'.waiting := (List.nodup_cons.1 (hq ▸ q.nodup)).1
    rw [ih, hq, outstanding, List.filter_cons_of_neg (by simp [ended_served])]
    congr 1
    refine List.filter_congr fun i hi => ?_
    have hne : id ≠ i := fun h => hid (h ▸ hi)
    simp [ended_served, hne]
  | @withdraw q q'' id ds hid _ ih =>
    rw [ih, outstanding, remove, List.filter_filter]
    congr 1
    refine List.filter_congr fun i _ => ?_
    simp [ended_withdrawn, eq_comm, Bool.and_comm]

/-- Whose wait has not ended still waits, and what happens to it first is the end of its wait. -/
theorem end_or_waits (h : Deals q ds q') (hid : id ∈ q.waiting) :
    (∃ mid d rest, ds = mid ++ d :: rest ∧ d.Ends id ∧ ∀ e ∈ mid, e.id ≠ id)
      ∨ ((∀ e ∈ ds, e.id ≠ id) ∧ id ∈ q'.waiting) := by
  -- Either holds still if something happens to another sprite before.
  have hcons : ∀ {d : Dealing} {ds : List Dealing} {q' : CheckQueue}, d.id ≠ id →
      ((∃ mid d rest, ds = mid ++ d :: rest ∧ d.Ends id ∧ ∀ e ∈ mid, e.id ≠ id)
        ∨ ((∀ e ∈ ds, e.id ≠ id) ∧ id ∈ q'.waiting)) →
      (∃ mid e rest, d :: ds = mid ++ e :: rest ∧ e.Ends id ∧ ∀ e ∈ mid, e.id ≠ id)
        ∨ ((∀ e ∈ d :: ds, e.id ≠ id) ∧ id ∈ q'.waiting) := by
    rintro d ds q' hd (⟨mid, e, rest, rfl, he, hmid⟩ | ⟨hds, hwaits⟩)
    · exact .inl ⟨d :: mid, e, rest, rfl, he, List.forall_mem_cons.2 ⟨hd, hmid⟩⟩
    · exact .inr ⟨List.forall_mem_cons.2 ⟨hd, hds⟩, hwaits⟩
  induction h with
  | nil q => exact .inr ⟨nofun, hid⟩
  | @join q q' q'' i ds hpush _ ih =>
    obtain ⟨hi, hq'⟩ := waiting_of_push hpush
    have hne : i ≠ id := fun h => hi (h ▸ hid)
    exact hcons hne (ih (hq' ▸ List.mem_append_left _ hid))
  | @serve q q' q'' i ds hpop _ ih =>
    by_cases hi : i = id
    · exact .inl ⟨[], _, ds, rfl, .inl (congrArg served hi), nofun⟩
    · rw [waiting_of_pop_some hpop] at hid
      exact hcons hi (ih ((List.mem_cons.1 hid).resolve_left (Ne.symm hi)))
  | @withdraw q q'' i ds _ _ ih =>
    by_cases hi : i = id
    · exact .inl ⟨[], _, ds, rfl, .inr (congrArg withdrawn hi), nofun⟩
    · exact hcons hi (ih (List.mem_filter.2 ⟨hid, by simpa using Ne.symm hi⟩))

end Deals

/-- What was dealt from an empty queue accounts for who waits in the end. -/
structure Ledger (ds : List Dealing) (q : CheckQueue) : Prop where
  /-- Those wait whose wait has not ended, in the order in which they joined. -/
  waiting : q.waiting = outstanding ds
  /-- Who joins did not wait.  What happens to it next, and it may not have happened yet, is the end
  of that wait. -/
  joined : ∀ pre id post, ds = pre ++ .joined id :: post → id ∉ outstanding pre
    ∧ ((∃ mid d rest, post = mid ++ d :: rest ∧ d.Ends id ∧ ∀ e ∈ mid, e.id ≠ id)
      ∨ ((∀ e ∈ post, e.id ≠ id) ∧ id ∈ q.waiting))
  /-- A wait that ends began, and nothing had happened to the sprite since. -/
  ended : ∀ pre d id post, ds = pre ++ d :: post → d.Ends id →
    ∃ before mid, pre = before ++ .joined id :: mid ∧ ∀ e ∈ mid, e.id ≠ id
  /-- Of those whose wait has not ended, the one that joined first is served. -/
  inOrder : ∀ pre id post, ds = pre ++ .served id :: post → (outstanding pre).head? = some id

theorem Deals.ledger (h : Deals .empty ds q) : Ledger ds q := by
  have houtstanding : ∀ {ds q}, Deals .empty ds q → q.waiting = outstanding ds :=
    fun h => h.waiting_eq
  refine ⟨houtstanding h, ?_, ?_, ?_⟩
  · rintro pre id post rfl
    obtain ⟨q', hpre, hpost⟩ := h.split
    cases hpost with
    | join hpush rest =>
      obtain ⟨hid, hq⟩ := waiting_of_push hpush
      exact ⟨houtstanding hpre ▸ hid, rest.end_or_waits (by simp [hq])⟩
  · rintro pre d id post rfl hd
    obtain ⟨q', hpre, hpost⟩ := h.split
    refine exists_joined (houtstanding hpre ▸ ?_)
    rcases hd with rfl | rfl
    · cases hpost with
      | serve hpop _ => simp [waiting_of_pop_some hpop]
    · cases hpost with
      | withdraw hid _ => exact hid
  · rintro pre id post rfl
    obtain ⟨q', hpre, hpost⟩ := h.split
    cases hpost with
    | serve hpop _ =>
      rw [← houtstanding hpre, waiting_of_pop_some hpop]
      rfl

theorem deals_served (q : CheckQueue) : Deals q (q.waiting.map .served) .empty := by
  generalize hws : q.waiting = ws
  induction ws generalizing q with
  | nil =>
    obtain rfl : q = .empty := ext_waiting hws
    exact .nil _
  | cons id ws ih =>
    rcases hpop : q.pop with ⟨_ | i, rest⟩
    · rw [waiting_of_pop_none hpop] at hws
      cases hws
    · rw [waiting_of_pop_some hpop] at hws
      cases hws
      exact .serve hpop (ih rest rfl)

end CheckQueue

/-! ## What deeds deal -/

namespace Deed

/-- A deed queues a check of a sprite: a call asks for one, or the sprite moves. -/
def Queues (id : SpriteId) : Deed → Prop
  | .answer (.queueCheck i) => i = id
  | .execute r b => r.id = id ∧ ∃ steps, b.command = .move steps
  | _ => False

/-- A deed has the waiting checks made. -/
def Drains : Deed → Prop
  | .answer .drainChecks | .drain _ => True
  | _ => False

end Deed

namespace World

open CheckQueue (Deals)

variable (settings : Settings) (now : Nat)

theorem strike_checks (w : World) (id : SpriteId) :
    (w.strike settings now id).1.checks = w.checks := by
  unfold strike
  split <;> rfl

theorem strikeAll_checks : ∀ (ids : List SpriteId) (w : World),
    (strikeAll settings now ids w).1.checks = w.checks
  | [], _ => rfl
  | id :: ids, w => (strikeAll_checks ids _).trans (strike_checks settings now w id)

theorem drain_checks (w : World) : (w.drain settings now).1.checks = .empty :=
  strikeAll_checks settings now _ _

theorem ring_checks (w : World) (alarm : AlarmId) (expiry : Expiry) :
    (w.ring alarm expiry).1.checks = w.checks := by
  unfold ring
  split
  · rfl
  · cases expiry <;> dsimp only <;> split <;> rfl

theorem execute_checks (w : World) (m : Member) (c : Command) :
    (w.execute settings now m c).1.checks = (w.apply settings now m c).checks := by
  unfold execute
  dsimp only
  split
  · exact strikeAll_checks settings now _ _
  · rfl

theorem unregister_checks (w : World) (id : SpriteId) :
    (w.unregister id).1.checks = w.checks.remove id := by
  unfold unregister
  dsimp only
  split <;> rfl

/-- What a deed does to the queue of waiting checks. -/
def dealings (w : World) : Deed → List Dealing
  | .answer (.queueCheck id) =>
    if (w.cast.find? id).isSome ∧ id ∉ w.checks.waiting then [.joined id] else []
  | .answer (.unregister id) => if id ∈ w.checks.waiting then [.withdrawn id] else []
  | .answer .drainChecks | .drain _ => w.checks.waiting.map .served
  | .execute r b =>
    match w.cast.find? r.id, b.command with
    | some m, .move _ =>
      if m.figure.looping ∧ m.id ∉ w.checks.waiting then [.joined m.id] else []
    | _, _ => []
  | _ => []

theorem deals_push (q : CheckQueue) (id : SpriteId) :
    Deals q (if id ∉ q.waiting then [.joined id] else []) (q.push id).2 := by
  split
  · rename_i hid
    exact .join (CheckQueue.push_of_not_mem hid) (.nil _)
  · rename_i hid
    rw [CheckQueue.push_of_mem (not_not.1 hid)]
    exact .nil q

theorem deals_unregister (w : World) (id : SpriteId) :
    Deals w.checks (w.dealings (.answer (.unregister id))) (w.unregister id).1.checks := by
  rw [unregister_checks, dealings]
  split
  · rename_i hid
    exact .withdraw hid (.nil _)
  · rename_i hid
    have hremove : w.checks.remove id = w.checks :=
      CheckQueue.ext_waiting (List.filter_eq_self.2 fun i hi => by
        simpa using fun h : i = id => hid (h ▸ hi))
    rw [hremove]
    exact .nil _

theorem deals_execute (w : World) (r : Role) (b : Block) : Deals w.checks
    (w.dealings (.execute r b)) (w.perform settings now (.execute r b)).1.checks := by
  simp only [dealings, perform]
  rcases hm : w.cast.find? r.id with _ | m
  · exact .nil _
  · simp only [execute_checks]
    cases b.command with
    | move steps =>
      by_cases hl : m.figure.looping
      · simp only [apply, hl, if_true, true_and]
        exact deals_push _ m.id
      · simp only [apply, hl]
        exact .nil _
    | _ => exact .nil _

/-- A deed does to the queue what it deals, and nothing else. -/
theorem deals_perform (w : World) (d : Deed) :
    Deals w.checks (w.dealings d) (w.perform settings now d).1.checks := by
  have hdrain : Deals w.checks (w.checks.waiting.map .served) (w.drain settings now).1.checks := by
    rw [drain_checks]
    exact CheckQueue.deals_served _
  cases d with
  | answer c =>
    cases c with
    | queueCheck id =>
      simp only [dealings, perform, reply]
      by_cases hid : (w.cast.find? id).isSome
      · simp only [hid, if_true, true_and]
        exact deals_push _ id
      · simp only [hid]
        exact .nil _
    | unregister id => exact deals_unregister w id
    | drainChecks => exact hdrain
    | checkAll =>
      rw [perform, reply, scan, strikePairs, strikeAll_checks]
      exact .nil _
    | _ => exact .nil _
  | begin run =>
    simp only [perform]
    split <;> exact .nil _
  | execute r b => exact deals_execute settings now w r b
  | drain r => exact hdrain
  | ring alarm expiry =>
    rw [perform, ring_checks]
    exact .nil _
  | _ => exact .nil _

variable {w : World} {d : Deed} {id : SpriteId}

/-- What a deed that deals so is: it queues the sprite, has the checks made, or takes the sprite
out. -/
def Cause (w : World) (d : Deed) : Dealing → Prop
  | .joined id => d.Queues id ∧ (w.cast.find? id).isSome
  | .served id => d.Drains ∧ id ∈ w.checks.waiting
  | .withdrawn id => d = .answer (.unregister id)

theorem cause_of_mem_dealings {e : Dealing} (h : e ∈ w.dealings d) : w.Cause d e := by
  have hserved : ∀ {d : Deed}, d.Drains → e ∈ w.checks.waiting.map .served → w.Cause d e := by
    intro d hd he
    obtain ⟨i, hi, rfl⟩ := List.mem_map.1 he
    exact ⟨hd, hi⟩
  cases d with
  | answer c =>
    cases c with
    | queueCheck i =>
      rw [dealings] at h
      split at h
      · rename_i hi
        cases List.mem_singleton.1 h
        exact ⟨rfl, hi.1⟩
      · cases h
    | unregister i =>
      rw [dealings] at h
      split at h
      · cases List.mem_singleton.1 h
        exact rfl
      · cases h
    | drainChecks => exact hserved trivial h
    | _ => cases h
  | execute r b =>
    simp only [dealings] at h
    split at h
    · rename_i m steps hm hb
      split at h
      · cases List.mem_singleton.1 h
        have hid := Cast.id_of_find? hm
        exact ⟨⟨hid.symm, steps, hb⟩, by rw [hid, hm]; rfl⟩
      · cases h
    · cases h
  | drain r => exact hserved trivial h
  | _ => cases h

/-- Who waits after a deed has waited before and was not taken out, or is queued by the deed and
registered. -/
theorem waiting_perform (h : id ∈ (w.perform settings now d).1.checks.waiting) :
    (id ∈ w.checks.waiting ∧ d ≠ .answer (.unregister id))
      ∨ (d.Queues id ∧ (w.cast.find? id).isSome) := by
  rw [(deals_perform settings now w d).waiting_eq] at h
  rcases List.mem_append.1 h with h | h
  · obtain ⟨hid, hends⟩ := List.mem_filter.1 h
    refine .inl ⟨hid, ?_⟩
    rintro rfl
    simp [dealings, hid, Dealing.ended_withdrawn] at hends
  · obtain ⟨before, mid, heq, -⟩ := Dealing.exists_joined h
    have hcause : w.Cause d (.joined id) :=
      cause_of_mem_dealings (heq ▸ List.mem_append_right _ List.mem_cons_self)
    exact .inr hcause

theorem waits_perform (h : id ∈ w.checks.waiting) (hdrains : ¬ d.Drains)
    (hu : d ≠ .answer (.unregister id)) : id ∈ (w.perform settings now d).1.checks.waiting := by
  rw [(deals_perform settings now w d).waiting_eq]
  refine List.mem_append_left _ (List.mem_filter.2 ⟨h, decide_eq_true ?_⟩)
  rintro ⟨e, he, rfl | rfl⟩
  · exact hdrains (cause_of_mem_dealings he).1
  · exact hu (cause_of_mem_dealings he)

theorem waits_of_move {r : Role} {b : Block} {m : Member} {steps : Float}
    (hm : w.cast.find? r.id = some m) (hl : m.figure.looping = true)
    (hb : b.command = .move steps) :
    r.id ∈ (w.perform settings now (.execute r b)).1.checks.waiting := by
  simp only [perform, hm, execute_checks, hb, apply, hl, if_true]
  rw [← Cast.id_of_find? hm]
  exact CheckQueue.mem_push_self _ _

/-! ## Who waits is registered -/

/-- Everybody who waits is registered. -/
def Enrolled (w : World) : Prop := ∀ id ∈ w.checks.waiting, (w.cast.find? id).isSome

theorem isSome_find?_perform (h : (w.cast.find? id).isSome) (hu : d ≠ .answer (.unregister id)) :
    ((w.perform settings now d).1.cast.find? id).isSome := by
  by_cases hr : d.recast? = some id
  · cases d with
    | answer c =>
      cases c with
      | register i position script target =>
        cases hr
        obtain ⟨m, hm⟩ := Option.isSome_iff_exists.1 h
        rw [perform, reply, Cast.find?_register_of_some hm]
        rfl
      | unregister i =>
        cases hr
        exact absurd rfl hu
      | setScript i script =>
        cases hr
        rw [perform, reply, Cast.find?_setScript_self, Option.isSome_map]
        exact h
      | _ => cases hr
    | _ => cases hr
  · have hpart := congrArg Option.isSome (part?_perform settings now w hr)
    simp only [Cast.part?, Option.isSome_map] at hpart
    rwa [hpart]

theorem Enrolled.perform (h : w.Enrolled) (d : Deed) : (w.perform settings now d).1.Enrolled := by
  intro id hid
  have hu : d ≠ .answer (.unregister id) := by
    rintro rfl
    rcases waiting_perform settings now hid with ⟨-, hne⟩ | ⟨hq, -⟩
    · exact hne rfl
    · exact hq
  rcases waiting_perform settings now hid with ⟨hw, -⟩ | ⟨-, hsome⟩
  · exact isSome_find?_perform settings now (h id hw) hu
  · exact isSome_find?_perform settings now hsome hu

end World

/-! ## What a chronicle deals -/

namespace Moment

variable (settings : Settings)

/-- What happens to the queue of waiting checks in a chronicle. -/
def dealings : Moment → List Entry → List Dealing
  | _, [] => []
  | n, e :: log => n.world.dealings e.deed ++ dealings (n.perform settings e) log

variable {settings} {n : Moment} {log : List Entry} {id : SpriteId}

theorem deals_after (n : Moment) (log : List Entry) :
    n.world.checks.Deals (n.dealings settings log) (n.after settings log).world.checks := by
  induction log generalizing n with
  | nil => exact .nil _
  | cons e log ih =>
    exact (World.deals_perform settings e.time n.world e.deed).append (ih (n.perform settings e))

theorem enrolled_after (h : n.world.Enrolled) (log : List Entry) :
    (n.after settings log).world.Enrolled := by
  induction log generalizing n with
  | nil => exact h
  | cons e log ih => exact ih (n := n.perform settings e) (h.perform settings e.time e.deed)

/-- Who waits is there when the checks are made next, unless it is taken out before. -/
theorem exists_drain (settings : Settings) (h : id ∈ n.world.checks.waiting)
    (hd : ∃ e ∈ log, e.deed.Drains) (hu : ∀ e ∈ log, e.deed ≠ .answer (.unregister id)) :
    ∃ before e after, log = before ++ e :: after ∧ e.deed.Drains
      ∧ id ∈ (n.after settings before).world.checks.waiting := by
  induction log generalizing n with
  | nil =>
    obtain ⟨e, he, -⟩ := hd
    cases he
  | cons e log ih =>
    obtain ⟨hue, hulog⟩ := List.forall_mem_cons.1 hu
    by_cases hdrains : e.deed.Drains
    · exact ⟨[], e, log, rfl, hdrains, h⟩
    · obtain ⟨e', he', hd'⟩ := hd
      have he' : e' ∈ log := (List.mem_cons.1 he').resolve_left fun heq => hdrains (heq ▸ hd')
      have hw := World.waits_perform settings e.time h hdrains hue
      obtain ⟨before, e'', after, rfl, hrest⟩ :=
        ih (n := n.perform settings e) hw ⟨e', he', hd'⟩ hulog
      exact ⟨e :: before, e'', after, rfl, hrest⟩

end Moment

end SpriteCanvas
