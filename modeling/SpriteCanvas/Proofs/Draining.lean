import SpriteCanvas.Proofs.Scanning

/-!
# What a drain of the waiting checks does

A drain makes one check after the other, each on the world as the checks before have left it
(`World.drain_eq_checkInTurn`).  Since nobody moves, each waiting sprite is struck once for each
sprite near it, and so is each sprite near it (`World.Drained`).  Two that both wait turn each other
around twice, so who is turned in the end depends on who waits and not on the order
(`World.facing?_drain`), and if everybody waits nobody is turned.  All this holds wherever any moves
come to (`Course.drain_law`).
-/

namespace SpriteCanvas

namespace World

variable {settings : Settings} {now : Nat} {w w' : World} {a b id : SpriteId}
  {ringing : List (AlarmId × Expiry)} {clock : Nat} {table : Timetable}

/-! ## One check after the other -/

/-- The pairs of a sprite and each that touches it. -/
def pairsOf (settings : Settings) (w : World) (id : SpriteId) : List (SpriteId × SpriteId) :=
  (settings.detector.partners id w.cast.bodies).map fun other => (id, other)

/-- Takes the sprite that waits first, checks it on the world as it is by then, and so on until
nobody waits. -/
def checkInTurn (settings : Settings) (now : Nat) (w : World) : World × List Notice × Nat :=
  match _h : w.checks.pop with
  | (none, _) => (w, [], 0)
  | (some id, rest) =>
    let pairs := w.pairsOf settings id
    let struck := strikePairs settings now pairs { w with checks := rest }
    let others := checkInTurn settings now struck.1
    (others.1, struck.2 ++ others.2.1, pairs.length + others.2.2)
termination_by w.checks.waiting.length
decreasing_by
  have hchecks : struck.1.checks = rest := strikeAll_checks settings now _ _
  rw [hchecks, CheckQueue.waiting_of_pop_some _h]
  exact Nat.lt_succ_self _

/-- Strikes are the same whoever waits. -/
theorem strikeAll_checks_irrel (settings : Settings) (now : Nat) (q : CheckQueue) :
    ∀ (ids : List SpriteId) (w : World), strikeAll settings now ids { w with checks := q }
      = ({ (strikeAll settings now ids w).1 with checks := q }, (strikeAll settings now ids w).2)
  | [], _ => rfl
  | id :: ids, w => by
    have hfirst : strike settings now id { w with checks := q }
        = ({ (w.strike settings now id).1 with checks := q }, (w.strike settings now id).2) := by
      unfold strike
      dsimp only
      split <;> rfl
    simp only [strikeAll, hfirst, strikeAll_checks_irrel settings now q ids]

theorem bodies_strikeAll (settings : Settings) (now : Nat) (ids : List SpriteId) (w : World) :
    (strikeAll settings now ids w).1.cast.bodies = w.cast.bodies :=
  (strikeAll_redraws settings now ids w).bodies_eq fun _ _ h => h.position_eq

theorem drain_eq (settings : Settings) (now : Nat) (w : World) : w.drain settings now
    = ({ (strikePairs settings now (w.waitingPairs settings) w).1 with checks := .empty },
      (strikePairs settings now (w.waitingPairs settings) w).2,
      (w.waitingPairs settings).length) := by
  simp only [drain, strikePairs, strikeAll_checks_irrel]

theorem drain_nil (settings : Settings) (now : Nat) (h : w.checks.waiting = []) :
    w.drain settings now = (w, [], 0) := by
  have hempty : w.checks = .empty := CheckQueue.ext_waiting h
  have hpairs : w.waitingPairs settings = [] := by rw [waitingPairs, h]; rfl
  rw [drain, hpairs, ← hempty]
  rfl

/-- A drain checks who waits first and then drains what is left; nobody has moved by then, so the
other pairs are as before. -/
theorem drain_cons {rest : CheckQueue} (settings : Settings) (now : Nat)
    (h : w.checks.waiting = id :: rest.waiting) :
    w.drain settings now =
      let struck := strikePairs settings now (w.pairsOf settings id) { w with checks := rest }
      let others := struck.1.drain settings now
      (others.1, struck.2 ++ others.2.1, (w.pairsOf settings id).length + others.2.2) := by
  have hothers : ({ (strikePairs settings now (w.pairsOf settings id) w).1 with
      checks := rest }).waitingPairs settings = rest.waiting.flatMap (w.pairsOf settings) := by
    have hbodies := bodies_strikeAll settings now (eachOf (w.pairsOf settings id)) w
    rw [waitingPairs, strikePairs, ← eachOf, hbodies]
    rfl
  have hpairs : w.waitingPairs settings
      = w.pairsOf settings id ++ rest.waiting.flatMap (w.pairsOf settings) := by
    rw [waitingPairs, h, List.flatMap_cons]
    rfl
  have hstruck : strikePairs settings now (w.pairsOf settings id) { w with checks := rest }
      = ({ (strikePairs settings now (w.pairsOf settings id) w).1 with checks := rest },
        (strikePairs settings now (w.pairsOf settings id) w).2) :=
    strikeAll_checks_irrel settings now _ _ w
  rw [drain_eq, hpairs, hstruck]
  dsimp only
  rw [drain_eq, hothers]
  simp only [strikePairs, List.flatMap_append, strikeAll_append, strikeAll_checks_irrel,
    List.length_append]

theorem drain_eq_checkInTurn (settings : Settings) (now : Nat) (w : World) :
    w.drain settings now = w.checkInTurn settings now := by
  fun_induction checkInTurn settings now w with
  | case1 w _ h => exact drain_nil settings now (CheckQueue.waiting_of_pop_none h)
  | case2 w id rest h pairs struck others ih =>
    rw [drain_cons settings now (CheckQueue.waiting_of_pop_some h)]
    simp only [pairs, struck, others, ih]

/-! ## The waiting pairs -/

theorem waitingPairs_eq (settings : Settings) (w : World) :
    w.waitingPairs settings = w.checks.waiting.flatMap fun id =>
      (w.cast.near settings.detector id).map fun other => (id, other) := by
  simp only [waitingPairs, Cast.partners_bodies]

theorem mem_waitingPairs : (a, b) ∈ w.waitingPairs settings
    ↔ a ∈ w.checks.waiting ∧ b ∈ w.cast.near settings.detector a := by
  simp only [waitingPairs_eq, List.mem_flatMap, List.mem_map, Prod.mk.injEq]
  constructor
  · rintro ⟨_, ha, _, hb, rfl, rfl⟩
    exact ⟨ha, hb⟩
  · rintro ⟨ha, hb⟩
    exact ⟨a, ha, b, hb, rfl, rfl⟩

theorem waitingPairs_nodup (settings : Settings) (w : World) : (w.waitingPairs settings).Nodup := by
  rw [waitingPairs_eq, List.nodup_flatMap]
  refine ⟨fun a _ => (Cast.near_nodup _ _ a).map fun _ _ h => (Prod.mk.inj h).2,
    w.checks.nodup.imp fun hne => ?_⟩
  rintro p hp hq
  obtain ⟨_, -, rfl⟩ := List.mem_map.1 hp
  obtain ⟨_, -, heq⟩ := List.mem_map.1 hq
  exact hne (Prod.mk.inj heq).1.symm

theorem length_waitingPairs (settings : Settings) (w : World) :
    (w.waitingPairs settings).length = (w.checks.waiting.map (w.contacts settings)).sum := by
  simp only [waitingPairs_eq, List.length_flatMap, List.length_map]
  rfl

/-- How often a sprite is struck in a drain: once for each sprite near it if it waits, and once for
each waiting sprite near which it is. -/
def waitingStrikes (settings : Settings) (w : World) (id : SpriteId) : Nat :=
  (if id ∈ w.checks.waiting then w.contacts settings id else 0)
    + w.checks.waiting.countP fun q => id ∈ w.cast.near settings.detector q

theorem count_waitingPairs (settings : Settings) (w : World) (id : SpriteId) :
    (eachOf (w.waitingPairs settings)).count id = w.waitingStrikes settings id := by
  have hfirst : (w.waitingPairs settings).countP (·.1 = id)
      = if id ∈ w.checks.waiting then w.contacts settings id else 0 := by
    split
    · rename_i hid
      exact countP_fst_eq (waitingPairs_nodup settings w) (Cast.near_nodup _ _ id) fun b => by
        simp [mem_waitingPairs, hid]
    · rename_i hid
      exact countP_fst_eq (waitingPairs_nodup settings w) .nil fun b => by
        simp [mem_waitingPairs, hid]
  have hsecond : (w.waitingPairs settings).countP (·.2 = id)
      = (w.checks.waiting.filter fun q => id ∈ w.cast.near settings.detector q).length :=
    countP_snd_eq (waitingPairs_nodup settings w) (w.checks.nodup.filter _) fun a => by
      simp [mem_waitingPairs]
  rw [count_eachOf, hfirst, hsecond, waitingStrikes, List.countP_eq_length_filter]

/-! ## Drains -/

/-- What a drain of the waiting checks comes to: its new world, what the host is told and the
count. -/
structure Drained (settings : Settings) (now : Nat) (w : World) (r : Reply) : Prop where
  checks : r.world.checks = .empty
  struck : Struck (settings.dark now) (w.waitingStrikes settings)
    { w with checks := .empty } r.world
  turned : ∀ m ∈ w.cast.members, ∀ m', r.world.cast.find? m.id = some m' →
    (m'.figure.facing ≠ m.figure.facing ↔ w.waitingStrikes settings m.id % 2 = 1)
  highlighted : ∀ m ∈ w.cast.members, ∀ m', r.world.cast.find? m.id = some m' →
    (m'.figure.highlight.isSome ↔ m.figure.highlight.isSome ∨ 0 < w.waitingStrikes settings m.id)
  answer : r.answer = .count (w.checks.waiting.map (w.contacts settings)).sum
  /-- The pairs are in the order in which sprites wait, and for each in the order of the names. -/
  pairs : w.waitingPairs settings = w.checks.waiting.flatMap fun id =>
    (w.cast.near settings.detector id).map fun other => (id, other)
  inOrder : ∀ id, (w.cast.near settings.detector id).Pairwise (· < ·)
  notices : r.notices = (w.waitingPairs settings).zipIdx.flatMap fun p =>
    w.struckNotice p.1.1 ((eachOf ((w.waitingPairs settings).take p.2)).count p.1.1 + 1)
      ++ w.struckNotice p.1.2 ((eachOf ((w.waitingPairs settings).take p.2)).count p.1.2 + 1)
  length_notices : r.notices.length = 2 * (w.waitingPairs settings).length

theorem drained (now : Nat) (h : w.Kept ringing clock table) :
    w.Drained settings now (w.reply settings now .drainChecks) := by
  have hempty : Kept { w with checks := .empty } ringing clock table := h.congr rfl rfl rfl
  have hall := struck_strikeAll settings now (eachOf (w.waitingPairs settings)) hempty
  have hstruck : Struck (settings.dark now) (w.waitingStrikes settings)
      { w with checks := .empty } (w.reply settings now .drainChecks).world := by
    simp only [count_waitingPairs] at hall
    exact hall
  have hnear : ∀ p ∈ w.waitingPairs settings, p.2 ∈ w.cast.near settings.detector p.1 :=
    fun p hp => (mem_waitingPairs.1 hp).2
  exact ⟨hstruck.checks, hstruck, fun m hm m' => hstruck.facing_ne_iff hm,
    fun m hm m' => hstruck.isSome_highlight_iff hm,
    congrArg Answer.count (length_waitingPairs settings w), waitingPairs_eq settings w,
    Cast.near_sorted _ _,
    notices_strikePairs settings now _ (fun p hp => (Cast.ne_of_mem_near (hnear p hp)).symm) hempty,
    length_notices_strikePairs settings now fun p hp =>
      ⟨Cast.mem_ids_of_mem_near (Cast.mem_near_comm.1 (hnear p hp)),
        Cast.mem_ids_of_mem_near (hnear p hp)⟩⟩

/-! ## Who is turned in the end -/

/-- How many sprites near a sprite wait while it does not, or do not wait while it does. -/
def unmatched (settings : Settings) (w : World) (id : SpriteId) : Nat :=
  (w.cast.near settings.detector id).countP fun other =>
    ¬ (id ∈ w.checks.waiting ↔ other ∈ w.checks.waiting)

/-- Being near is mutual: to find a sprite with each of those that wait is to find those near it
that wait. -/
theorem countP_waiting (settings : Settings) (w : World) (id : SpriteId) :
    (w.checks.waiting.countP fun q => id ∈ w.cast.near settings.detector q)
      = (w.cast.near settings.detector id).countP (· ∈ w.checks.waiting) := by
  have hperm : (w.checks.waiting.filter fun q => id ∈ w.cast.near settings.detector q).Perm
      ((w.cast.near settings.detector id).filter (· ∈ w.checks.waiting)) := by
    refine (List.perm_ext_iff_of_nodup (w.checks.nodup.filter _)
      ((Cast.near_nodup _ _ id).filter _)).2 fun q => ?_
    simp only [List.mem_filter, decide_eq_true_eq, Cast.mem_near_comm (a := q), and_comm]
  rw [List.countP_eq_length_filter, List.countP_eq_length_filter, hperm.length_eq]

/-- Two sprites near each other that both wait strike each other twice. -/
theorem waitingStrikes_eq (settings : Settings) (w : World) (id : SpriteId) :
    w.waitingStrikes settings id = w.unmatched settings id
      + 2 * if id ∈ w.checks.waiting
        then (w.cast.near settings.detector id).countP (· ∈ w.checks.waiting) else 0 := by
  rw [waitingStrikes, countP_waiting, unmatched, contacts]
  by_cases hid : id ∈ w.checks.waiting
  · have hsplit := List.length_eq_countP_add_countP (fun other => decide (other ∈ w.checks.waiting))
      (l := w.cast.near settings.detector id)
    simp only [hid, if_true, true_iff]
    simp only [decide_eq_true_eq] at hsplit
    omega
  · simp [hid]

theorem facing?_drain (settings : Settings) (now : Nat) (h : w.Kept ringing clock table)
    (id : SpriteId) : (w.reply settings now .drainChecks).world.cast.facing? id
      = (w.cast.facing? id).map Facing.flip^[w.unmatched settings id] := by
  have hstruck := (drained now h : w.Drained settings now _).struck
  rw [hstruck.facing?_eq, waitingStrikes_eq]
  congr 1
  funext f
  rw [Function.iterate_add_apply, Facing.iterate_flip_two_mul]

theorem unmatched_of_perm {q : CheckQueue} (h : q.waiting.Perm w.checks.waiting) :
    unmatched settings { w with checks := q } = w.unmatched settings := by
  funext id
  simp only [unmatched, h.mem_iff]

/-! ## When everybody waits -/

theorem unmatched_of_all_waiting (h : ∀ id ∈ w.cast.ids, id ∈ w.checks.waiting) (id : SpriteId) :
    w.unmatched settings id = 0 := by
  refine List.countP_eq_zero.2 fun other hother => ?_
  have hid := h id (Cast.mem_ids_of_mem_near (Cast.mem_near_comm.1 hother))
  have hwaits := h other (Cast.mem_ids_of_mem_near hother)
  simp [hid, hwaits]

/-- If everybody waits, each touching pair is found twice, once by either sprite. -/
theorem perm_waitingPairs (h : ∀ id ∈ w.cast.ids, id ∈ w.checks.waiting) :
    (w.waitingPairs settings).Perm
      (w.touchingPairs settings ++ (w.touchingPairs settings).map Prod.swap) := by
  have hnodup := Cast.pairs_nodup settings.detector w.cast
  refine (List.perm_ext_iff_of_nodup (waitingPairs_nodup settings w) ?_).2 ?_
  · refine List.nodup_append.2 ⟨hnodup, hnodup.map Prod.swap_injective, ?_⟩
    rintro ⟨a, b⟩ hab p hp rfl
    obtain ⟨⟨i, j⟩, hij, heq⟩ := List.mem_map.1 hp
    cases heq
    exact String.lt_asymm (Cast.mem_pairs_iff.1 hab).1 (Cast.mem_pairs_iff.1 hij).1
  · rintro ⟨a, b⟩
    have hswap : (a, b) ∈ (w.touchingPairs settings).map Prod.swap
        ↔ b < a ∧ b ∈ w.cast.near settings.detector a := by
      rw [← Cast.mem_near_comm, ← Cast.mem_pairs_iff]
      simp [touchingPairs]
    rw [List.mem_append, hswap, mem_waitingPairs, touchingPairs, Cast.mem_pairs_iff, ← or_and_right]
    refine and_congr_left fun hnear => iff_of_true ?_ ?_
    · exact h a (Cast.mem_ids_of_mem_near (Cast.mem_near_comm.1 hnear))
    · by_cases hlt : a < b
      · exact .inl hlt
      · exact .inr (Std.lt_of_le_of_ne (String.not_lt.1 hlt) (Cast.ne_of_mem_near hnear))

/-! ## The law -/

/-- Two that wait and are near each other are found twice, once by either. -/
theorem perm_mutual (ha : a ∈ w.checks.waiting) (hb : b ∈ w.checks.waiting)
    (hnear : b ∈ w.cast.near settings.detector a) :
    ((w.waitingPairs settings).filter fun p => p = (a, b) ∨ p = (b, a)).Perm [(a, b), (b, a)] := by
  have hab : (a, b) ∈ w.waitingPairs settings := mem_waitingPairs.2 ⟨ha, hnear⟩
  have hba : (b, a) ∈ w.waitingPairs settings :=
    mem_waitingPairs.2 ⟨hb, Cast.mem_near_comm.1 hnear⟩
  refine (List.perm_ext_iff_of_nodup ((waitingPairs_nodup settings w).filter _) ?_).2 fun p => ?_
  · simp [(Cast.ne_of_mem_near hnear).symm]
  · simp only [List.mem_filter, decide_eq_true_eq, List.mem_cons, List.not_mem_nil, or_false]
    refine ⟨And.right, fun hp => ⟨?_, hp⟩⟩
    rcases hp with rfl | rfl
    · exact hab
    · exact hba

/-- What a drain does.  It is the loop that takes one waiting sprite after the other; it comes to
`Drained`; the facings it leaves depend on who waits and not on the order.  A performer that has
the checks made does the same, and the host is told of all of it, in order. -/
structure DrainLaw (settings : Settings) (now : Nat) (w : World) : Prop where
  inTurn : w.reply settings now .drainChecks = ⟨(w.checkInTurn settings now).1,
    (w.checkInTurn settings now).2.1, .count (w.checkInTurn settings now).2.2⟩
  drained : w.Drained settings now (w.reply settings now .drainChecks)
  twice : ∀ a ∈ w.checks.waiting, ∀ b ∈ w.checks.waiting, b ∈ w.cast.near settings.detector a →
    ((w.waitingPairs settings).filter fun p => p = (a, b) ∨ p = (b, a)).Perm [(a, b), (b, a)]
  net : ∀ id, (w.reply settings now .drainChecks).world.cast.facing? id
    = (w.cast.facing? id).map Facing.flip^[w.unmatched settings id]
  anyOrder : ∀ q : CheckQueue, q.waiting.Perm w.checks.waiting → ∀ id,
    (reply settings now { w with checks := q } .drainChecks).world.cast.facing? id
      = (w.reply settings now .drainChecks).world.cast.facing? id
  allWaiting : (∀ id ∈ w.cast.ids, id ∈ w.checks.waiting) →
    (∀ id, (w.reply settings now .drainChecks).world.cast.facing? id = w.cast.facing? id)
      ∧ (w.reply settings now .drainChecks).answer
        = .count (2 * (w.touchingPairs settings).length)
  performed : ∀ r,
    w.perform settings now (.drain r) = w.perform settings now (.answer .drainChecks)
  told : ∀ d a, ((w.perform settings now d).2.map fun n => Entry.mk now (.tell n)).Sublist
    (Scene.log settings now [d] ⟨w, a⟩)

theorem drainLaw (now : Nat) (h : w.Kept ringing clock table) : w.DrainLaw settings now where
  inTurn := by
    rw [← drain_eq_checkInTurn]
    rfl
  drained := drained now h
  twice _ ha _ hb hnear := perm_mutual ha hb hnear
  net := facing?_drain settings now h
  anyOrder q hq id := by
    have hq' : Kept { w with checks := q } ringing clock table := h.congr rfl rfl rfl
    rw [facing?_drain settings now hq', facing?_drain settings now h, unmatched_of_perm hq]
  allWaiting hall := by
    refine ⟨fun id => ?_, congrArg Answer.count ?_⟩
    · rw [facing?_drain settings now h, unmatched_of_all_waiting hall]
      exact congrFun Option.map_id _
    · simp [(perm_waitingPairs hall).length_eq, Nat.two_mul]
  performed _ := rfl
  told d a := Scene.sublist_log settings now d ⟨w, a⟩

end World

namespace Course

/-- Wherever any moves come to, and at any time on the way there, a request for the waiting checks
and a performer that has them made do what a drain does. -/
theorem drain_law (settings : Settings) (listening : Listening) (reactions : List Reaction)
    (ms : List Move) (now : Nat) :
    ((start listening reactions).run settings ms).engine.world.DrainLaw settings now
      ∧ ∀ n, (((start listening reactions).run settings ms).worldAt settings n).DrainLaw
        settings now := by
  have hall : ∀ n, (((start listening reactions).run settings ms).worldAt settings n).DrainLaw
      settings now := fun n => by
    obtain ⟨ringing, clock, table, h⟩ := exists_kept_worldAt settings listening reactions ms n
    exact World.drainLaw now h
  exact ⟨worldAt_length settings listening reactions ms ▸ hall _, hall⟩

end Course

end SpriteCanvas
