import SpriteCanvas.Proofs.SideBySide

/-!
# Requests side by side

A call that is not about a sprite leaves its share as it is (`Show.share_call_of_passesBy`), and a
call about it, or a stop, makes the same of the same share (`Show.share_call_congr`).  The first
play gives a sprite that is registered one part, at the opening of its script
(`Show.Reached.share_play?`).  Runs begin with plays only.
-/

namespace SpriteCanvas

variable {settings : Settings} {listening : Listening} {now : Nat} {id : SpriteId}

/-! ## Calls -/

def Call.isStop : Call → Bool
  | .stop => true
  | _ => false

theorem Call.isStop_iff {c : Call} : c.isStop = true ↔ c = .stop := by
  cases c <;> simp [isStop]

theorem Call.subject?_of_recast? {c : Call} (h : c.recast? = some id) : c.subject? = some id := by
  cases c with
  | register i position script target => exact h
  | unregister i => exact h
  | setScript i script => exact h
  | _ => cases h

/-- What a call makes of a part of a sprite. -/
def Part.called (c : Call) (id : SpriteId) (a : Part) : Part where
  phase := a.phase
  current := a.current && c.recast? ≠ some id
  stopped := a.stopped || c.isStop

/-- The part of a performer that joins a run with a script. -/
def Part.joining (script : Script) : Part := ⟨.opening script, true, false⟩

theorem Part.called_eq_self {c : Call} {a : Part} (hid : c.recast? ≠ some id)
    (hs : c.isStop = false) : a.called c id = a := by
  simp [called, hid, hs]

namespace Show

variable {x y : Show}

/-- The generation of a performer was given out. -/
theorem Reached.generation_lt (h : x.Reached settings listening now) {p : Performer}
    (hp : p ∈ x.performers) : p.generation < x.world.cast.nextGeneration := by
  obtain ⟨log, hlaw, hagree⟩ := h.agrees
  have hd := hlaw.dated.part p.role
  rw [hagree.cues.todo_of_mem p hp, hagree.world] at hd
  exact hd nofun

theorem Reached.serves (h : x.Reached settings listening now) :
    x.world.runs.Serves x.performers := by
  obtain ⟨log, -, hagree⟩ := h.agrees
  exact hagree.serves

theorem world_call (h : x.scene.audience.waiting = []) (c : Call) :
    (x.call settings now c).2.world = (x.world.perform settings now (.answer c)).1 :=
  (Scene.perform_quiet settings now h (.answer c)).1

theorem part_call (hr : settings.detector.OutOfReach) (hx : x.Reached settings listening now)
    (c : Call) {p : Performer} (hp : p ∈ x.performers) (hid : p.id = id) :
    p.part (x.call settings now c).2.world = (p.part x.world).called c id := by
  subst hid
  rw [world_call (hx.fit hr p.id).scene.quiet]
  refine congrArg₂ (Part.mk p.phase) ?_ ?_
  · by_cases hc : c.recast? = some p.id
    · have hpast := World.past_of_recast settings now (d := .answer c) hc (hx.generation_lt hp)
      rw [hpast.not_current, decide_eq_false (fun h => h hc), Bool.and_false]
    · have hpart := World.part?_perform settings now x.world (d := .answer c) hc
      rw [decide_eq_true hc, Bool.and_true, Cast.isCurrent_eq, hpart, ← Cast.isCurrent_eq]
      rfl
  · rw [Performer.isStopped, World.perform_runs, RunBook.isStopped]
    rcases hs : c.isStop with _ | _
    · rw [Bool.or_false]
      cases c with
      | stop => cases hs
      | _ => rfl
    · obtain rfl := Call.isStop_iff.1 hs
      rw [Bool.or_true, List.contains_iff_mem]
      exact RunBook.mem_stopped_stop _ |>.2 (hx.serves.1 p hp).symm

theorem parts_call (hr : settings.detector.OutOfReach) (hx : x.Reached settings listening now)
    (c : Call) (id : SpriteId) :
    ((x.call settings now c).2.share id).parts = (x.share id).parts.map (·.called c id) :=
  partsOf_eq_map fun _ hp hid => part_call hr hx c hp hid

/-- A call that is not about a sprite leaves its share as it is. -/
theorem share_call_of_passesBy (hr : settings.detector.OutOfReach)
    (hx : x.Reached settings listening now) {c : Call} (hc : (Deed.answer c).PassesBy id) :
    (x.call settings now c).2.share id = x.share id := by
  refine congrArg₂ Share.mk (Scene.view_perform_of_spares hr (hx.fit hr id).scene hc) ?_
  have hid : c.recast? ≠ some id := fun h => hc.1 (Call.subject?_of_recast? h)
  have hs : c.isStop = false := by
    rw [← Bool.not_eq_true, Call.isStop_iff]
    exact hc.2
  refine (parts_call hr hx c id).trans ?_
  simp only [Part.called_eq_self hid hs, List.map_id']
  rfl

/-- A call about a sprite, or a stop, makes the same of the same share. -/
theorem share_call_congr (hr : settings.detector.OutOfReach)
    (hx : x.Reached settings listening now) (hy : y.Reached settings listening now)
    (h : x.share id = y.share id) {c : Call} (hc : c.subject? = some id ∨ c = .stop) :
    (x.call settings now c).2.share id = (y.call settings now c).2.share id := by
  obtain ⟨hv, -⟩ := Share.mk.inj h
  have hfx := (hx.fit hr id).scene
  have hfy := (hy.fit hr id).scene
  obtain ⟨tx, hkx⟩ := hfx.kept
  obtain ⟨ty, hky⟩ := hfy.kept
  have hm : World.Matches id (x.scene.world.perform settings now (.answer c))
      (y.scene.world.perform settings now (.answer c)) :=
    World.matches_reply now hkx hky (congrArg View.sight hv) hc
  refine congrArg₂ Share.mk (Scene.view_perform_congr hfx.quiet hfy.quiet hv hm) ?_
  refine (parts_call hr hx c id).trans (.trans ?_ (parts_call hr hy c id).symm)
  rw [h]

/-! ## Plays -/

theorem filter_entering (w : World) (run : RunId) (id : SpriteId) :
    (entering w run).filter (·.id = id)
      = ((w.cast.find? id).map fun m =>
          ({ id := m.id, generation := m.generation, run := run, phase := .opening m.script } :
            Performer)).toList := by
  rw [entering, List.filter_map]
  refine (congrArg (List.map _) (Member.filter_id id w.cast.sorted)).trans ?_
  exact Option.toList_map.symm

theorem eq_of_perm_toList {α : Type} {o : Option α} {xs : List α} (h : xs.Perm o.toList) :
    xs = o.toList := by
  rcases o with _ | a
  · exact List.perm_nil.1 h
  · exact List.perm_singleton.1 h

/-- Who joins a run that was not stopped is the sprite of now. -/
theorem part_of_member {w : World} {m : Member} {run : RunId} (hm : w.cast.find? id = some m)
    (hrun : run ∉ w.runs.stopped) :
    Performer.part ⟨m.id, m.generation, run, .opening m.script⟩ w = .joining m.script := by
  have hcurrent : w.cast.isCurrent m.id m.generation = true := by
    rw [Cast.isCurrent, Cast.id_of_find? hm, hm]
    exact decide_eq_true rfl
  have hstopped : w.runs.stopped.contains run = false := by
    rwa [← Bool.not_eq_true, List.contains_iff_mem]
  exact congrArg₂ (Part.mk (.opening m.script)) hcurrent hstopped

/-- Before any run there is none in the book, and nobody performs. -/
theorem Reached.idle (hx : x.Reached settings listening now) (hb : x.world.runs.begun = 0) :
    (∀ run, ¬ x.world.runs.Holds run) ∧ x.performers = [] := by
  obtain ⟨hholds, hcounted⟩ := hx.serves
  have hnone : ∀ run, ¬ x.world.runs.Holds run := fun run h =>
    Nat.not_lt_zero run (hb ▸ hcounted run h)
  exact ⟨hnone, List.eq_nil_iff_forall_not_mem.2 fun p hp => hnone p.run (hholds p hp)⟩

/-- Before any run, a sprite that is registered joins the first run, and nobody else is there. -/
theorem Reached.share_play? (hx : x.Reached settings listening now)
    (hb : x.world.runs.begun = 0) : ∃ run x', x.play? = some (run, x')
      ∧ x'.share id
        = ⟨x.scene.view id, ((x.world.cast.look? id).map fun l => .joining l.2.1).toList⟩ := by
  obtain ⟨hnone, hps⟩ := hx.idle hb
  have hl : x.world.runs.live = none :=
    Option.eq_none_iff_forall_ne_some.2 fun run h => hnone run (.inl h)
  have hbegin : x.world.runs.begin?
      = some (0, { x.world.runs with begun := 1, live := some 0 }) := by
    rw [RunBook.begin?, hl, hb]
  simp only [play?, hbegin]
  refine ⟨0, _, rfl, (share_finishIfDone ..).trans (congrArg (Share.mk _) ?_)⟩
  have hperm := (foldl_join_perm (entering x.world 0) x.performers).filter (·.id = id)
  rw [hps, List.append_nil, filter_entering] at hperm
  rw [hps]
  refine (congrArg (List.map _) (eq_of_perm_toList hperm)).trans ?_
  rw [Cast.look?]
  rcases hm : x.world.cast.find? id with _ | m
  · rfl
  · exact congrArg (fun a => [a]) (part_of_member hm fun h => hnone 0 (.inr h))

variable {x' : Show}

/-- No run begins in a turn. -/
theorem begun_turn? (h : x.turn? settings now = some x') :
    x'.world.runs.begun = x.world.runs.begun := by
  rcases turn?_cases h with ⟨-, rfl⟩ | ⟨-, before, p, after, -, -, -, rfl⟩
  · exact begun_alarmTurn settings now x
  · exact begun_performerTurn settings now before p after x.scene

theorem begun_settle (x : Show) :
    (x.settle settings now).world.runs.begun = x.world.runs.begun := by
  have h : ∀ {x'}, x.Turns settings now x' → x'.world.runs.begun = x.world.runs.begun := by
    intro x' ht
    induction ht with
    | refl => rfl
    | tail _ h ih => exact (begun_turn? h).trans ih
  exact h (turns_settle x)

theorem begun_advance (duration : Nat) (x : Show) :
    (x.advance settings now duration).2.world.runs.begun = x.world.runs.begun := by
  have h : ∀ {limit a : Nat} {x : Show},
      (x.passUntil settings (fun _ => false) limit a).2.world.runs.begun
        = x.world.runs.begun := by
    intro limit a x
    fun_induction passUntil settings (fun _ => false) limit a x with
    | case1 a x hd => rfl
    | case2 a x hd t hw ht ih => exact ih.trans (begun_settle x)
    | case3 => rfl
    | case4 => rfl
  exact h.trans (begun_settle x)

theorem begun_call (x : Show) (c : Call) :
    (x.call settings now c).2.world.runs.begun = x.world.runs.begun :=
  (Scene.keeps_perform settings now x.scene (RunBook.keeps_perform_answer _ c)).1

end Show

end SpriteCanvas
