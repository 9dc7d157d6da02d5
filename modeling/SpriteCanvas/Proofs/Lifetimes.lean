import SpriteCanvas.Proofs.Hearing
import SpriteCanvas.Proofs.Renewal
import SpriteCanvas.Proofs.Unrolling
import SpriteCanvas.Proofs.Waiting

/-!
# Lifetimes

A sprite that is registered again, given another script or taken out has a new life.  What was
started for an older one comes to nothing: a performer finds that its generation is past
(`Moment.Superseded`), an alarm finds another one in its slot, and a waiting check was taken out
with its sprite (`Course.lives_apart`).
-/

namespace SpriteCanvas

namespace Moment

variable {settings : Settings} {n : Moment} {log : List Entry} {e : Entry} {r : Role}
  {id : SpriteId}

/-! ## Parts of older lives -/

/-- The generations of all members, and of all parts that are not over, were given out. -/
structure Dated (n : Moment) : Prop where
  member : ∀ id m, n.world.cast.find? id = some m → m.generation < n.world.cast.nextGeneration
  part : ∀ r, n.todo r ≠ none → r.generation < n.world.cast.nextGeneration

/-- A part that is not over was not over before, or goes into a run with its sprite. -/
theorem todoAfter_ne_none {d : Deed} (h : n.todoAfter d r ≠ none) : n.todo r ≠ none
    ∨ d = .begin r.run ∧ ∃ m, n.world.cast.find? r.id = some m ∧ m.generation = r.generation := by
  cases d with
  | begin run =>
    simp only [todoAfter] at h
    split at h
    · rename_i hrun
      rw [World.score, ne_eq, Option.map_eq_none_iff] at h
      obtain ⟨m, hm⟩ := Option.ne_none_iff_exists'.1 h
      obtain ⟨hm, hg⟩ := Option.filter_eq_some_iff.1 hm
      exact .inr ⟨hrun ▸ rfl, m, hm, by simpa using hg⟩
    · exact .inl h
  | execute r' b =>
    refine .inl fun ht => h ?_
    by_cases hr : r = r'
    · subst hr
      rw [todoAfter, Function.update_self, ht]
      rfl
    · rw [todoAfter, Function.update_of_ne hr, ht]
  | leave r' =>
    refine .inl fun ht => h ?_
    by_cases hr : r = r'
    · subst hr
      exact Function.update_self _ _ _
    · rw [todoAfter, Function.update_of_ne hr, ht]
  | _ => exact .inl h

theorem Dated.perform (h : n.Dated) (e : Entry) : (n.perform settings e).Dated := by
  have hages := World.ages_perform settings e.time n.world e.deed
  refine ⟨fun id m' hm' => ?_, fun r hr => ?_⟩
  · rcases hages.generation id m' hm' with ⟨m, hm, hg⟩ | ⟨-, hlt⟩
    · exact hg ▸ Nat.lt_of_lt_of_le (h.member id m hm) hages.next_le
    · exact hlt
  · refine Nat.lt_of_lt_of_le ?_ hages.next_le
    rcases todoAfter_ne_none hr with ht | ⟨-, m, hm, hg⟩
    · exact h.part r ht
    · exact hg ▸ h.member r.id m hm

theorem dated_start : start.Dated := ⟨nofun, fun _ h => absurd rfl h⟩

theorem Lawful.dated (h : Lawful settings start log) : (start.after settings log).Dated :=
  h.induction (P := fun _ n => n.Dated) dated_start fun e _ _ _ hn _ _ => hn.perform e

/-- A part of a run that has begun, whose generation is past unless the part is over. -/
structure Superseded (n : Moment) (r : Role) : Prop where
  begun : r.run < n.world.runs.begun
  past : n.todo r ≠ none → n.world.cast.Past r.id r.generation

theorem Superseded.perform (h : n.Superseded r) (ha : n.Allows e.deed) :
    (n.perform settings e).Superseded r where
  begun := by
    rw [runs_perform]
    exact Nat.lt_of_lt_of_le h.begun (RunBook.begun_le_perform _ _)
  past ht := (h.past (todo_ne_none_of_perform h.begun ha ht)).ages
    (World.ages_perform settings e.time n.world e.deed)

theorem Superseded.after (h : n.Superseded r) (hl : n.Lawful settings log) :
    (n.after settings log).Superseded r :=
  hl.induction (P := fun _ n => n.Superseded r) h fun _ _ _ _ hn _ ha => hn.perform ha

/-- A deed that recasts a sprite supersedes all of its parts. -/
theorem Dated.superseded (h : n.Dated) (ha : n.Allows e.deed) (he : e.deed.recast? = some r.id)
    (hr : r.run < n.world.runs.begun) : (n.perform settings e).Superseded r where
  begun := by
    rw [runs_perform]
    exact Nat.lt_of_lt_of_le hr (RunBook.begun_le_perform _ _)
  past ht := World.past_of_recast settings e.time he
    (h.part r (todo_ne_none_of_perform hr ha ht))

theorem Superseded.not_allows_execute (h : n.Superseded r) (b : Block) :
    ¬ n.Allows (.execute r b) := by
  rintro ⟨-, hcur, rest, ht⟩
  rw [(h.past (by rw [ht]; exact nofun)).not_current] at hcur
  cases hcur

theorem Superseded.world_mark (h : n.Superseded r) {t : Nat} {looping : Bool}
    (ha : n.Allows (.mark r looping)) :
    (n.perform settings ⟨t, .mark r looping⟩).world = n.world := by
  obtain ⟨script, ht⟩ := ha
  have hcur := (h.past (by rw [ht]; exact nofun)).not_current
  simp only [Moment.perform, World.perform, World.setLooping, Cast.updateCurrent, hcur]
  rfl

/-! ## Alarms and checks of older lives -/

theorem renews_after (log : List Entry) : n.world.Renews (n.after settings log).world := by
  induction log generalizing n with
  | nil => exact .refl n.world
  | cons e log ih =>
    have hrest := ih (n := n.perform settings e)
    exact (World.renews_perform settings e.time n.world e.deed).trans hrest

/-- An alarm that was set before the slots of a sprite were emptied changes nothing of it. -/
theorem find?_ring {w : World} (hr : w.Renews n.world) (hs : ∀ e, e.sprite = id → w.slots e = none)
    {alarm : AlarmId} (ha : alarm < w.alarms.next) (t : Nat) (expiry : Expiry) :
    (n.perform settings ⟨t, .ring alarm expiry⟩).world.cast.find? id
      = n.world.cast.find? id := by
  by_cases hi : expiry.sprite = id
  · have hstale : n.world.slots expiry ≠ some alarm := by
      intro hk
      rcases hr.slots expiry alarm hk with hk | hk
      · rw [hs expiry hi] at hk
        cases hk
      · exact Nat.lt_irrefl _ (Nat.lt_of_lt_of_le ha hk)
    simp only [Moment.perform, World.perform, World.ring_stale hstale]
  · exact World.find?_ring_of_ne n.world alarm hi

/-- A sprite waits for a check only if something queues it after it did not wait. -/
theorem exists_queues (hn : id ∉ n.world.checks.waiting)
    (h : id ∈ (n.after settings log).world.checks.waiting) : ∃ e ∈ log, e.deed.Queues id := by
  induction log generalizing n with
  | nil => exact absurd h hn
  | cons e log ih =>
    by_cases he : id ∈ (n.perform settings e).world.checks.waiting
    · rcases World.waiting_perform settings e.time he with ⟨hw, -⟩ | ⟨hq, -⟩
      · exact absurd hw hn
      · exact ⟨e, List.mem_cons_self, hq⟩
    · obtain ⟨e', he', hq⟩ := ih he h
      exact ⟨e', List.mem_cons_of_mem e he', hq⟩

/-- Nobody has the name, and no check of it waits. -/
def Absent (n : Moment) (id : SpriteId) : Prop :=
  n.world.cast.find? id = none ∧ id ∉ n.world.checks.waiting

theorem absent_unregister (settings : Settings) (n : Moment) (t : Nat) (id : SpriteId) :
    (n.perform settings ⟨t, .answer (.unregister id)⟩).Absent id := by
  refine ⟨?_, fun h => ?_⟩
  · simp only [Moment.perform, World.perform, World.reply, World.unregister_cast, Cast.find?_remove,
      if_true]
  · rcases World.waiting_perform settings t h with ⟨-, hne⟩ | ⟨hq, -⟩
    · exact hne rfl
    · exact hq

theorem Absent.perform (h : n.Absent id) (he : e.deed.target? id = none) :
    (n.perform settings e).Absent id := by
  refine ⟨World.find?_perform_of_none settings e.time h.1 he, fun hw => ?_⟩
  rcases World.waiting_perform settings e.time hw with ⟨hw, -⟩ | ⟨-, hm⟩
  · exact h.2 hw
  · rw [h.1] at hm
    cases hm

theorem Absent.after (h : n.Absent id) (hlog : ∀ e ∈ log, e.deed.target? id = none) :
    (n.after settings log).Absent id := by
  induction log generalizing n with
  | nil => exact h
  | cons e log ih =>
    exact ih (h.perform (hlog e List.mem_cons_self)) fun e' he' =>
      hlog e' (List.mem_cons_of_mem e he')

/-- Whoever is registered under a name that nobody had starts afresh. -/
theorem Absent.register (h : n.Absent id) (t : Nat) (position : Point) (script : Script)
    (target : String) :
    (∃ generation, (n.perform settings ⟨t, .answer (.register id position script target)⟩
      ).world.cast.find? id = some ⟨id, target, .new position, script, generation⟩)
      ∧ id ∉ (n.perform settings ⟨t, .answer (.register id position script target)⟩
        ).world.checks.waiting := by
  refine ⟨⟨_, Cast.find?_register_of_none h.1 target position script⟩, fun hw => ?_⟩
  rcases World.waiting_perform settings t hw with ⟨hw, -⟩ | ⟨hq, -⟩
  · exact h.2 hw
  · exact hq

/-- Nothing that the slots of a removed sprite held is held by one of that name again. -/
theorem slots_unregister (n : Moment) (t : Nat) {e : Expiry} (he : e.sprite = id) :
    (n.perform settings ⟨t, .answer (.unregister id)⟩).world.slots e = none := by
  simp only [Moment.perform, World.perform, World.reply, World.slots_unregister, he, if_true]

end Moment

namespace Course

variable (settings : Settings) (listening : Listening) (reactions : List Reaction) (ms : List Move)

/-- Let a call that gives a sprite a new life, or ends its life, be answered somewhere in the
chronicle of any moves.  No part of a run that had begun by then executes another block on the
sprite, nor does it mark the sprite.  If the call took the sprite out, then whoever is registered
under its name next starts afresh, no alarm that was set by then changes anybody of that name, and
a check of that name waits only if it was queued since. -/
theorem lives_apart {pre post : List Entry} {t : Nat} {c : Call} {id : SpriteId}
    (hchronicle : ((start listening reactions).run settings ms).chronicle
      = pre ++ ⟨t, .answer c⟩ :: post)
    (hc : c.recast? = some id) :
    (∀ r : Role, r.id = id → r.run < (Moment.start.after settings pre).world.runs.begun →
      (∀ t' b, ⟨t', .execute r b⟩ ∉ post)
        ∧ ∀ mid t' looping rest, post = mid ++ ⟨t', .mark r looping⟩ :: rest →
          (Moment.start.after settings
              (pre ++ ⟨t, .answer c⟩ :: (mid ++ [⟨t', .mark r looping⟩]))).world
            = (Moment.start.after settings (pre ++ ⟨t, .answer c⟩ :: mid)).world)
      ∧ (c = .unregister id →
        (∀ mid t' position script target rest,
          post = mid ++ ⟨t', .answer (.register id position script target)⟩ :: rest →
          (∀ e ∈ mid, e.deed.target? id = none) →
          (∃ generation, (Moment.start.after settings (pre ++ ⟨t, .answer c⟩ :: (mid
              ++ [⟨t', .answer (.register id position script target)⟩]))).world.cast.find? id
                = some ⟨id, target, .new position, script, generation⟩)
            ∧ id ∉ (Moment.start.after settings (pre ++ ⟨t, .answer c⟩ :: (mid
              ++ [⟨t', .answer (.register id position script target)⟩]))).world.checks.waiting)
        ∧ (∀ mid t' alarm expiry rest, post = mid ++ ⟨t', .ring alarm expiry⟩ :: rest →
          alarm < (Moment.start.after settings pre).world.alarms.next →
          (Moment.start.after settings (pre ++ ⟨t, .answer c⟩ :: (mid
              ++ [⟨t', .ring alarm expiry⟩]))).world.cast.find? id
            = (Moment.start.after settings (pre ++ ⟨t, .answer c⟩ :: mid)).world.cast.find? id)
        ∧ ∀ mid rest, post = mid ++ rest →
          id ∈ (Moment.start.after settings (pre ++ ⟨t, .answer c⟩ :: mid)).world.checks.waiting →
          ∃ e ∈ mid, e.deed.Queues id) := by
  have hl := lawful_run settings listening reactions ms
  rw [hchronicle, Moment.lawful_append] at hl
  obtain ⟨hpre, -, ha, hpost⟩ := hl
  have hdated := hpre.dated
  simp only [Moment.after_append, Moment.after_cons, Moment.after_nil]
  generalize Moment.start.after settings pre = n at ha hpost hdated
  have hrenews := World.renews_perform settings t n.world (.answer c)
  refine ⟨fun r hr hrun => ⟨fun t' b hmem => ?_, ?_⟩, ?_⟩
  · obtain ⟨mid, rest, rfl⟩ := List.append_of_mem hmem
    obtain ⟨hmid, -, hexecute, -⟩ := (Moment.lawful_append settings _ _ _).1 hpost
    exact ((hdated.superseded ha (hr ▸ hc) hrun).after hmid).not_allows_execute b hexecute
  · rintro mid t' looping rest rfl
    obtain ⟨hmid, -, hmark, -⟩ := (Moment.lawful_append settings _ _ _).1 hpost
    exact ((hdated.superseded ha (hr ▸ hc) hrun).after hmid).world_mark hmark
  · rintro rfl
    have habsent := Moment.absent_unregister settings n t id
    refine ⟨?_, ?_, ?_⟩
    · rintro mid t' position script target rest rfl hmid
      exact (habsent.after hmid).register t' position script target
    · rintro mid t' alarm expiry rest rfl halarm
      exact Moment.find?_ring (Moment.renews_after mid)
        (fun e he => Moment.slots_unregister n t he)
        (Nat.lt_of_lt_of_le halarm hrenews.next_le) t' expiry
    · rintro mid rest rfl hw
      exact Moment.exists_queues habsent.2 hw

/-- A sprite turns, is taken out and registered again, and has not turned. -/
theorem afresh_after_turning : ∃ pre mid post,
    ((start .ignoring []).run .default
        ([.call (.register "a" .center [⟨"1", .turn 90⟩] "t"), .play, .performer 0]
          ++ [.call (.unregister "a"), .call (.register "a" .center [] "s")])).chronicle
        = pre ++ ⟨0, .answer (.unregister "a")⟩
          :: (mid ++ ⟨0, .answer (.register "a" .center [] "s")⟩ :: post)
      ∧ Call.recast? (.unregister "a") = some "a"
      ∧ ∃ generation, (Moment.start.after .default (pre ++ ⟨0, .answer (.unregister "a")⟩ :: (mid
        ++ [⟨0, .answer (.register "a" .center [] "s")⟩]))).world.cast.find? "a"
          = some ⟨"a", "s", .new .center, [], generation⟩ := by
  have hstart : (start .ignoring []).engine.scene.audience.waiting = [] := rfl
  generalize hms : ([.call (.register "a" .center [⟨"1", .turn 90⟩] "t"), .play, .performer 0] :
    List Move) = ms
  obtain ⟨x, hx⟩ : ∃ x, x = (start .ignoring []).run .default ms := ⟨_, rfl⟩
  have hquiet : x.engine.scene.audience.waiting = [] := hx ▸ quiet_run .default hstart ms
  have hclock : x.clock = 0 := by
    rw [hx, ← hms]
    rfl
  obtain ⟨ns, hout⟩ := chronicle_call_quiet .default hquiet (.unregister "a")
  obtain ⟨ns', hin⟩ := chronicle_call_quiet .default
    (quiet_run .default hquiet [.call (.unregister "a")]) (.register "a" .center [] "s")
  have hchronicle : ((start .ignoring []).run .default
      (ms ++ [.call (.unregister "a"), .call (.register "a" .center [] "s")])).chronicle
      = x.chronicle ++ ⟨0, .answer (.unregister "a")⟩ :: (ns.map (fun n => ⟨0, .tell n⟩)
        ++ ⟨0, .answer (.register "a" .center [] "s")⟩ :: ns'.map fun n => ⟨0, .tell n⟩) := by
    rw [run_append, ← hx]
    refine hin.trans ?_
    rw [run, run, hout, show (x.move .default (.call (.unregister "a"))).clock = 0 from hclock,
      hclock, List.append_assoc, List.cons_append]
  refine ⟨_, _, _, hchronicle, rfl, ?_⟩
  refine (((lives_apart .default .ignoring [] _ hchronicle rfl).2 rfl).1 _ _ _ _ _ _ rfl ?_).1
  intro e he
  obtain ⟨n, -, rfl⟩ := List.mem_map.1 he
  rfl

/-- What waits under another name is checked against whoever is registered by then: a check of `b`
that waited before `a` was taken out strikes the new `a`. -/
theorem struck_by_older_check : ∃ x y z : Course,
    x = (start .ignoring []).run .default [.call (.register "a" .center [] "t"),
        .call (.register "b" .center [] "u"), .call (.queueCheck "b")]
      ∧ y = x.run .default [.call (.unregister "a"), .call (.register "a" .center [] "t")]
      ∧ z = y.run .default [.call .drainChecks]
      ∧ x.engine.world.checks.waiting = ["b"] ∧ y.engine.world.checks.waiting = ["b"]
      ∧ (y.engine.world.cast.find? "a").map (·.figure) = some (.new .center)
      ∧ (z.engine.world.cast.find? "a").map (·.figure.facing) = some .reverse := by
  generalize hcs : [Call.register "a" .center [] "t", .register "b" .center [] "u",
    .queueCheck "b"] = cs
  generalize hcs' : [Call.unregister "a", .register "a" .center [] "t"] = cs'
  obtain ⟨x, hx⟩ : ∃ x, x = (start .ignoring []).run .default (cs.map .call) := ⟨_, rfl⟩
  obtain ⟨y, hy⟩ : ∃ y, y = x.run .default (cs'.map .call) := ⟨_, rfl⟩
  obtain ⟨hworld, hquiet⟩ := calls_quiet .default cs (x := start .ignoring []) rfl
  rw [← hx] at hworld hquiet
  obtain ⟨hworld', hquiet'⟩ := calls_quiet .default cs' hquiet
  rw [← hy, hworld] at hworld'
  rw [← hy] at hquiet'
  have hclock : x.clock = 0 := by
    rw [hx, ← hcs]
    rfl
  have hclock' : y.clock = 0 := by
    rw [hy, ← hcs']
    exact hclock
  obtain ⟨hworld'', -⟩ := calls_quiet .default [.drainChecks] hquiet'
  rw [hclock', hworld'] at hworld''
  refine ⟨x, y, _, by rw [hx, ← hcs]; rfl, by rw [hy, ← hcs']; rfl, rfl, ?_, ?_, ?_, ?_⟩
  · rw [hworld, ← hcs]
    rfl
  · rw [hworld', hclock, ← hcs, ← hcs']
    rfl
  · rw [hworld', hclock, ← hcs, ← hcs']
    rfl
  · rw [show (y.run .default [.call .drainChecks]).engine.world = _ from hworld'', hclock, ← hcs,
      ← hcs']
    decide +kernel

end Course

end SpriteCanvas
