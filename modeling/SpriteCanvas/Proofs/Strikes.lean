import Mathlib.Logic.Function.Iterate
import SpriteCanvas.Proofs.Renewal
import SpriteCanvas.Proofs.Timekeeping
import SpriteCanvas.Proofs.Waiting

/-!
# What strikes add up to

Whoever is struck several times has turned around as often, is lit by the alarm of the last time and
by no other, and is else as before, and so is the rest of the world (`World.struck_strikeAll`).  The
host is told of every strike how the sprite was right after it (`World.notices_strikePairs`).
-/

namespace SpriteCanvas

namespace Facing

theorem iterate_flip (n : Nat) (f : Facing) : flip^[n] f = if n % 2 = 0 then f else f.flip := by
  induction n with
  | zero => rfl
  | succ n ih =>
    rw [Function.iterate_succ_apply', ih]
    rcases Nat.mod_two_eq_zero_or_one n with h | h <;> simp [h, Nat.add_mod]

theorem flip_ne (f : Facing) : f.flip ≠ f := by cases f <;> exact nofun

/-- An odd number of flips changes a facing. -/
theorem iterate_flip_ne_iff (n : Nat) (f : Facing) : flip^[n] f ≠ f ↔ n % 2 = 1 := by
  rw [iterate_flip]
  rcases Nat.mod_two_eq_zero_or_one n with h | h <;> simp [h, flip_ne]

theorem iterate_flip_two_mul (n : Nat) (f : Facing) : flip^[2 * n] f = f := by
  rw [iterate_flip, if_pos (Nat.mul_mod_right 2 n)]

end Facing

/-- Setting an alarm in a slot, in place of the one that was there, arms it and disarms no other. -/
theorem Alarms.Kept.armed_set {a : Alarms} {slots : Slots} {ringing : List (AlarmId × Expiry)}
    {clock : Nat} {table : Timetable} (h : a.Kept slots ringing clock table)
    (clockStart now duration : Nat) (e e' : Expiry) (k : AlarmId) (t : Nat) :
    ((a.set clockStart now duration e).2.cancel? (slots e)).Armed k e' t
      ↔ if e' = e then k = a.next ∧ t = Duration.deadline clockStart now duration
        else a.Armed k e' t := by
  rw [cancel?_eq_foldl, armed_cancelAll, h.sound.armed_set, Option.mem_toList]
  split
  · rename_i he
    subst he
    constructor
    · rintro ⟨⟨hk, -, ht⟩ | ha, hne⟩
      · exact ⟨hk, ht⟩
      · exact absurd (h.armed k e' t ha).1 hne
    · rintro ⟨rfl, rfl⟩
      exact ⟨.inl ⟨rfl, rfl, rfl⟩, fun hk => Nat.lt_irrefl _ (h.lt_next hk)⟩
  · rename_i he
    constructor
    · rintro ⟨⟨-, he', -⟩ | ha, -⟩
      · exact absurd he' he
      · exact ha
    · exact fun ha => ⟨.inr ha, fun hk => he (h.slot_eq ha hk).symm⟩

namespace Cast

/-- The facing of a sprite, if it is registered. -/
def facing? (c : Cast) (id : SpriteId) : Option Facing := (c.find? id).map (·.figure.facing)

variable {c : Cast} {id : SpriteId}

theorem mapFigures_congr {f g : Member → Figure} (h : ∀ m ∈ c.members, f m = g m) :
    c.mapFigures f = c.mapFigures g := by
  have hm : c.members.map (fun m => { m with figure := f m })
      = c.members.map fun m => { m with figure := g m } :=
    List.map_congr_left fun m hm => by rw [h m hm]
  simp only [mapFigures, hm]

theorem ids_mapFigures (f : Member → Figure) : (c.mapFigures f).ids = c.ids := by
  simp [ids, mapFigures, Function.comp_def]

theorem Redraws.ids_eq {R : Figure → Figure → Prop} {c' : Cast} (h : c.Redraws R c') :
    c'.ids = c.ids := by
  obtain ⟨f, rfl, -⟩ := h
  exact ids_mapFigures f

theorem mem_ids_of_find? {m : Member} (h : c.find? id = some m) : id ∈ c.ids :=
  id_of_find? h ▸ List.mem_map_of_mem (mem_of_find? h)

theorem not_mem_ids_of_find? (h : c.find? id = none) : id ∉ c.ids := fun hid => by
  obtain ⟨m, hm, rfl⟩ := List.mem_map.1 hid
  cases h.symm.trans (find?_of_mem hm)

theorem highlight?_of_mem {m : Member} (hm : m ∈ c.members) :
    c.highlight? m.id = m.figure.highlight := by
  rw [highlight?, find?_of_mem hm]
  rfl

end Cast

namespace World

/-- What becomes of a world when its sprites are struck so many times each: who is struck turns
around as often and is lit until the deadline, by an alarm that was not given out before and no
other, and nothing else changes. -/
structure Struck (deadline : Nat) (times : SpriteId → Nat) (w w' : World) : Prop where
  cast : w'.cast = w.cast.mapFigures fun m => { m.figure with
    facing := Facing.flip^[times m.id] m.figure.facing
    highlight := w'.cast.highlight? m.id }
  spared : ∀ id, times id = 0 → w'.cast.highlight? id = w.cast.highlight? id
  lit : ∀ id ∈ w.cast.ids, times id ≠ 0 →
    ∃ k, w'.cast.highlight? id = some k ∧ w.alarms.next ≤ k
  armed : ∀ id ∈ w.cast.ids, times id ≠ 0 → ∀ k t, w'.alarms.Armed k (.highlight id) t
    ↔ w'.cast.highlight? id = some k ∧ t = deadline
  others : ∀ e, (∀ id ∈ w.cast.ids, times id ≠ 0 → e ≠ .highlight id) →
    ∀ k t, w'.alarms.Armed k e t ↔ w.alarms.Armed k e t
  next_le : w.alarms.next ≤ w'.alarms.next
  checks : w'.checks = w.checks
  runs : w'.runs = w.runs

variable {w w' w'' : World} {deadline : Nat} {times times' : SpriteId → Nat}

theorem Struck.refl (deadline : Nat) (h : ∀ id ∈ w.cast.ids, times id = 0) :
    w.Struck deadline times w where
  cast := by
    refine (Cast.mapFigures_figure w.cast).symm.trans (Cast.mapFigures_congr fun m hm => ?_)
    rw [h m.id (List.mem_map_of_mem hm), Cast.highlight?_of_mem hm]
    rfl
  spared _ _ := rfl
  lit id hmem hid := absurd (h id hmem) hid
  armed id hmem hid := absurd (h id hmem) hid
  others _ _ _ _ := .rfl
  next_le := Nat.le_refl _
  checks := rfl
  runs := rfl

theorem Struck.ids_eq (h : w.Struck deadline times w') : w'.cast.ids = w.cast.ids := by
  rw [h.cast, Cast.ids_mapFigures]

theorem Struck.find?_eq (h : w.Struck deadline times w') {m : Member} (hm : m ∈ w.cast.members) :
    w'.cast.find? m.id = some { m with figure := { m.figure with
      facing := Facing.flip^[times m.id] m.figure.facing
      highlight := w'.cast.highlight? m.id } } := by
  refine (congrArg (Cast.find? · m.id) h.cast).trans ?_
  rw [Cast.find?_mapFigures, Cast.find?_of_mem hm]
  rfl

theorem Struck.facing?_eq (h : w.Struck deadline times w') (id : SpriteId) :
    w'.cast.facing? id = (w.cast.facing? id).map Facing.flip^[times id] := by
  rw [Cast.facing?, h.cast, Cast.find?_mapFigures, Cast.facing?, Option.map_map, Option.map_map]
  rcases hm : w.cast.find? id with _ | m
  · rfl
  · obtain rfl := Cast.id_of_find? hm
    rfl

/-- Who is struck an odd number of times faces the other way. -/
theorem Struck.facing_ne_iff (h : w.Struck deadline times w') {m m' : Member}
    (hm : m ∈ w.cast.members) (hm' : w'.cast.find? m.id = some m') :
    m'.figure.facing ≠ m.figure.facing ↔ times m.id % 2 = 1 := by
  obtain rfl := Option.some.inj (hm'.symm.trans (h.find?_eq hm))
  exact Facing.iterate_flip_ne_iff _ _

/-- Who was lit stays so, and who is struck is lit. -/
theorem Struck.isSome_highlight_iff (h : w.Struck deadline times w') {m m' : Member}
    (hm : m ∈ w.cast.members) (hm' : w'.cast.find? m.id = some m') :
    m'.figure.highlight.isSome ↔ m.figure.highlight.isSome ∨ 0 < times m.id := by
  obtain rfl := Option.some.inj (hm'.symm.trans (h.find?_eq hm))
  dsimp only
  by_cases ht : times m.id = 0
  · rw [h.spared m.id ht, Cast.highlight?_of_mem hm, ht]
    simp
  · obtain ⟨k, hk, -⟩ := h.lit m.id (List.mem_map_of_mem hm) ht
    rw [hk]
    simp [Nat.pos_of_ne_zero ht]

theorem Struck.trans (h : w.Struck deadline times w') (h' : w'.Struck deadline times' w'') :
    w.Struck deadline (fun id => times' id + times id) w'' where
  cast := by
    refine h'.cast.trans ((congrArg (Cast.mapFigures · _) h.cast).trans ?_)
    rw [Cast.mapFigures_mapFigures]
    refine Cast.mapFigures_congr fun m _ => ?_
    rw [Function.iterate_add_apply]
  spared id hid := by
    have hid := Nat.add_eq_zero_iff.1 hid
    exact (h'.spared id hid.1).trans (h.spared id hid.2)
  lit id hmem hid := by
    by_cases hid' : times' id = 0
    · rw [h'.spared id hid']
      exact h.lit id hmem (by omega)
    · obtain ⟨k, hk, hle⟩ := h'.lit id (h.ids_eq ▸ hmem) hid'
      exact ⟨k, hk, Nat.le_trans h.next_le hle⟩
  armed id hmem hid := by
    by_cases hid' : times' id = 0
    · intro k t
      rw [h'.spared id hid', h'.others _ (fun i _ hi he => hi (Expiry.highlight.inj he ▸ hid'))]
      exact h.armed id hmem (by omega) k t
    · exact h'.armed id (h.ids_eq ▸ hmem) hid'
  others e he k t := by
    rw [h'.others e fun id hid hne => he id (h.ids_eq ▸ hid) (by omega)]
    exact h.others e (fun id hid hne => he id hid (by omega)) k t
  next_le := Nat.le_trans h.next_le h'.next_le
  checks := h'.checks.trans h.checks
  runs := h'.runs.trans h.runs

variable (settings : Settings) (now : Nat) {ringing : List (AlarmId × Expiry)} {clock : Nat}
  {table : Timetable}

/-- A strike turns a sprite around and lights it by a new alarm. -/
theorem struck_strike (h : w.Kept ringing clock table) (id : SpriteId) :
    w.Struck (settings.dark now) (fun i => [id].count i)
      (w.strike settings now id).1 := by
  have hcount : ∀ i, [id].count i ≠ 0 → i = id := fun i hi =>
    List.mem_singleton.1 (List.count_pos_iff.1 (Nat.pos_of_ne_zero hi))
  rcases hm : w.cast.find? id with _ | m
  · have hw : (w.strike settings now id).1 = w := by rw [strike, hm]
    rw [hw]
    exact .refl _ fun i hi => List.count_eq_zero.2 fun hmem =>
      Cast.not_mem_ids_of_find? hm (List.mem_singleton.1 hmem ▸ hi)
  · have hcast : (w.strike settings now id).1.cast
        = w.cast.update id (·.strike w.alarms.next) := by
      simp only [strike, hm]
      rfl
    have halarms : (w.strike settings now id).1.alarms
        = (w.alarms.set settings.clockStart now settings.highlightTime (.highlight id)).2.cancel?
          (w.slots (.highlight id)) := by
      simp only [strike, hm, slots_highlight hm]
    have hlight : (w.strike settings now id).1.cast.highlight?
        = Function.update w.cast.highlight? id (some w.alarms.next) := by
      rw [hcast]
      exact Cast.highlight?_update hm fun g => rfl
    refine ⟨?_, fun i hi => ?_, fun i _ hi => ?_, fun i _ hi k t => ?_, fun e he k t => ?_,
      (renews_strike settings now w id).next_le, strike_checks settings now w id,
      strike_runs settings now w id⟩
    · rw [hlight, hcast, Cast.update]
      refine Cast.mapFigures_congr fun n hn => ?_
      by_cases hid : n.id = id
      · rw [if_pos hid, hid, List.count_singleton_self, Function.update_self]
        rfl
      · rw [if_neg hid, Function.update_of_ne hid, Cast.highlight?_of_mem hn,
          List.count_singleton, if_neg (by simpa using Ne.symm hid)]
        rfl
    · have hne : i ≠ id := by
        rintro rfl
        rw [List.count_singleton_self] at hi
        cases hi
      rw [hlight, Function.update_of_ne hne]
    · obtain rfl := hcount i hi
      exact ⟨w.alarms.next, by rw [hlight, Function.update_self], Nat.le_refl _⟩
    · obtain rfl := hcount i hi
      rw [halarms, h.armed_set, if_pos rfl, hlight, Function.update_self, Option.some.injEq,
        eq_comm (a := k)]
    · have hne : e ≠ .highlight id :=
        he id (Cast.mem_ids_of_find? hm) (by rw [List.count_singleton_self]; exact Nat.one_ne_zero)
      rw [halarms, h.armed_set, if_neg hne]

/-- Striking sprites one after the other. -/
theorem struck_strikeAll : ∀ (ids : List SpriteId) {w : World} {table : Timetable},
    w.Kept ringing clock table → w.Struck (settings.dark now)
      (fun i => ids.count i) (strikeAll settings now ids w).1
  | [], _, _, _ => .refl _ fun _ _ => rfl
  | id :: ids, w, table, h => by
    have hcount : (fun i => (id :: ids).count i) = fun i => ids.count i + [id].count i := by
      funext i
      rw [← List.count_append, List.perm_append_comm.count_eq]
      rfl
    have hkept : (w.strike settings now id).1.Kept ringing clock _ :=
      kept_strikeAll settings now [id] h
    rw [hcount]
    exact (struck_strike settings now h id).trans (struck_strikeAll ids hkept)

/-! ## What the host is told -/

/-- The update of a sprite right after it was struck, which makes so many times by then. -/
def struckNotice (w : World) (id : SpriteId) (times : Nat) : List Notice :=
  match w.cast.find? id with
  | some m => [.update ⟨id, m.target, [.highlight, .facing], { m.figure.snapshot with
      facing := Facing.flip^[times] m.figure.facing
      highlighted := true }⟩]
  | none => []

theorem strike_notices (w : World) (id : SpriteId) :
    (w.strike settings now id).2 = w.struckNotice id 1 := by
  rcases hm : w.cast.find? id with _ | m
  · rw [strike, struckNotice, hm]
  · simp only [strike, struckNotice, hm, notice, Cast.find?_update_self, Option.map_some]
    rfl

theorem Struck.struckNotice_eq (h : w.Struck deadline times w') (id : SpriteId) (n : Nat) :
    w'.struckNotice id n = w.struckNotice id (n + times id) := by
  unfold struckNotice
  rw [h.cast, Cast.find?_mapFigures]
  rcases hm : w.cast.find? id with _ | m
  · rfl
  · obtain rfl := Cast.id_of_find? hm
    simp only [Option.map_some, Function.iterate_add_apply]
    rfl

theorem strikeAll_append (ids ids' : List SpriteId) (w : World) :
    strikeAll settings now (ids ++ ids') w
      = ((strikeAll settings now ids' (strikeAll settings now ids w).1).1,
        (strikeAll settings now ids w).2
          ++ (strikeAll settings now ids' (strikeAll settings now ids w).1).2) := by
  induction ids generalizing w with
  | nil => rfl
  | cons id ids ih => simp only [List.cons_append, strikeAll, ih, List.append_assoc]

/-- The host is told of every strike of a registered sprite. -/
theorem length_notices_strikeAll : ∀ (ids : List SpriteId) {w : World},
    (∀ id ∈ ids, id ∈ w.cast.ids) → (strikeAll settings now ids w).2.length = ids.length
  | [], _, _ => rfl
  | id :: ids, w, h => by
    have hids := (strike_redraws settings now w id).ids_eq
    obtain ⟨m, hm, rfl⟩ := List.mem_map.1 (h id List.mem_cons_self)
    have hfirst : (w.strike settings now m.id).2.length = 1 := by
      rw [strike_notices, struckNotice, Cast.find?_of_mem hm]
      rfl
    have hrest := length_notices_strikeAll ids (w := (w.strike settings now m.id).1) fun i hi =>
      hids ▸ h i (List.mem_cons_of_mem _ hi)
    simp only [strikeAll, List.length_append, hfirst, hrest, List.length_cons, Nat.add_comm]

theorem notices_strike_pair {a b : SpriteId} (hne : a ≠ b) (h : w.Kept ringing clock table) :
    (strikeAll settings now [a, b] w).2 = w.struckNotice a 1 ++ w.struckNotice b 1 := by
  have hcount : [a].count b = 0 := List.count_eq_zero.2 fun hb => hne (List.mem_singleton.1 hb).symm
  simp only [strikeAll, strike_notices, List.append_nil]
  rw [(struck_strike settings now h a).struckNotice_eq, hcount]

/-- The host is told of both sprites of each pair, the first one first. -/
theorem notices_strikePairs (pairs : List (SpriteId × SpriteId))
    (hne : ∀ p ∈ pairs, p.1 ≠ p.2) (h : w.Kept ringing clock table) :
    (strikePairs settings now pairs w).2 = pairs.zipIdx.flatMap fun p =>
      w.struckNotice p.1.1 ((eachOf (pairs.take p.2)).count p.1.1 + 1)
        ++ w.struckNotice p.1.2 ((eachOf (pairs.take p.2)).count p.1.2 + 1) := by
  -- From the end of the list: the last pair is struck in the world that the others leave.
  induction pairs using List.reverseRecOn with
  | nil => rfl
  | append_singleton pairs p ih =>
    have hp := hne p (List.mem_append_right _ List.mem_cons_self)
    have hstruck := struck_strikeAll settings now (eachOf pairs) h
    have hkept := kept_strikeAll settings now (eachOf pairs) h
    have hfirst := ih fun q hq => hne q (List.mem_append_left _ hq)
    have hlast : ([p].zipIdx pairs.length).flatMap (fun q =>
        w.struckNotice q.1.1 ((eachOf ((pairs ++ [p]).take q.2)).count q.1.1 + 1)
          ++ w.struckNotice q.1.2 ((eachOf ((pairs ++ [p]).take q.2)).count q.1.2 + 1))
        = w.struckNotice p.1 ((eachOf pairs).count p.1 + 1)
          ++ w.struckNotice p.2 ((eachOf pairs).count p.2 + 1) := by
      simp
    have htake : ∀ q ∈ pairs.zipIdx, (pairs ++ [p]).take q.2 = pairs.take q.2 := fun q hq =>
      List.take_append_of_le_length (Nat.le_of_lt (List.snd_lt_of_mem_zipIdx hq))
    rw [List.zipIdx_append, List.flatMap_append, Nat.zero_add, hlast,
      List.flatMap_congr fun q hq => by rw [htake q hq], ← hfirst]
    have hpairs : strikePairs settings now (pairs ++ [p]) w
        = strikeAll settings now (eachOf pairs ++ [p.1, p.2]) w := by
      simp [strikePairs, eachOf]
    rw [hpairs, strikeAll_append, notices_strike_pair settings now hp hkept,
      hstruck.struckNotice_eq, hstruck.struckNotice_eq, Nat.add_comm 1, Nat.add_comm 1]
    rfl

theorem length_notices_strikePairs {pairs : List (SpriteId × SpriteId)}
    (h : ∀ p ∈ pairs, p.1 ∈ w.cast.ids ∧ p.2 ∈ w.cast.ids) :
    (strikePairs settings now pairs w).2.length = 2 * pairs.length := by
  refine (length_notices_strikeAll settings now (eachOf pairs) fun id hid => ?_).trans ?_
  · obtain ⟨p, hp, hid⟩ := List.mem_flatMap.1 hid
    rcases List.mem_cons.1 hid with rfl | hid
    · exact (h p hp).1
    · exact List.mem_singleton.1 hid ▸ (h p hp).2
  · simp [eachOf, List.length_flatMap, Nat.mul_comm]

end World

end SpriteCanvas
