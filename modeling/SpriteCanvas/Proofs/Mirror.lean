import Mathlib.Logic.Function.Basic
import SpriteCanvas.Proofs.Frame

/-!
# A host's mirror

A host can keep a copy of every sprite by what it is told alone: it draws a sprite anew when it is
registered, redraws what an update lists, and forgets a sprite that is removed.  Whatever is done,
hearing of it turns a mirror of the world before into one of the world after
(`World.hear_perform`).
-/

namespace SpriteCanvas

/-- What a host keeps of a sprite. -/
structure Copy where
  position : Point
  heading : Heading
  facing : Facing
  message : Option String
  highlighted : Bool

def Snapshot.copy (s : Snapshot) : Copy :=
  ⟨s.position, s.heading, s.facing, s.message, s.highlighted⟩

/-- The copy with the changed parts as a snapshot has them. -/
def Copy.redraw (c : Copy) (changes : List Change) (s : Snapshot) : Copy where
  position := if .position ∈ changes then s.position else c.position
  heading := if .rotation ∈ changes then s.heading else c.heading
  facing := if .facing ∈ changes then s.facing else c.facing
  message := if .message ∈ changes then s.message else c.message
  highlighted := if .highlight ∈ changes then s.highlighted else c.highlighted

@[simp] theorem Snapshot.redraw_copy (s : Snapshot) (changes : List Change) :
    s.copy.redraw changes s = s.copy := by
  simp [Copy.redraw, copy]

/-- The copies that a host keeps. -/
abbrev Mirror := SpriteId → Option Copy

namespace Mirror

def hear (mirror : Mirror) : Notice → Mirror
  | .update u =>
    Function.update mirror u.id
      (if .registered ∈ u.changes then some u.snapshot.copy
      else (mirror u.id).map (·.redraw u.changes u.snapshot))
  | .removed id _ => Function.update mirror id none

def hearAll (mirror : Mirror) (ns : List Notice) : Mirror := ns.foldl hear mirror

@[simp] theorem hearAll_nil (mirror : Mirror) : mirror.hearAll [] = mirror := rfl

@[simp] theorem hearAll_append (mirror : Mirror) (ns ns' : List Notice) :
    mirror.hearAll (ns ++ ns') = (mirror.hearAll ns).hearAll ns' :=
  List.foldl_append

end Mirror

namespace World

/-- The copies of a host that is up to date. -/
def mirror (w : World) : Mirror := fun id => (w.cast.find? id).map (·.figure.snapshot.copy)

variable {w w' : World} {mirror : Mirror} {id : SpriteId} {changes : List Change}

/-- The copy of a sprite is right once it is redrawn for some changes. -/
def Owes (w : World) (changes : List Change) (mirror : Mirror) (id : SpriteId) : Prop :=
  match w.cast.find? id with
  | some m => ∃ c, mirror id = some c
      ∧ c.redraw changes m.figure.snapshot = m.figure.snapshot.copy
  | none => mirror id = none

theorem owes_of_eq (h : mirror id = w.mirror id) (changes : List Change) :
    w.Owes changes mirror id := by
  unfold Owes
  unfold World.mirror at h
  split <;> rename_i hm <;> rw [hm] at h
  · exact ⟨_, h, Snapshot.redraw_copy _ _⟩
  · exact h

theorem hear_notice (hr : .registered ∉ changes) (h : w.Owes changes mirror id) :
    mirror.hearAll (w.notice id changes) = Function.update mirror id (w.mirror id) := by
  unfold Owes at h
  unfold notice World.mirror
  split at h <;> rename_i hm <;> rw [hm]
  · obtain ⟨c, hc, heq⟩ := h
    simp [Mirror.hearAll, Mirror.hear, hr, hc, heq]
  · rw [Mirror.hearAll_nil, Option.map_none, ← h, Function.update_eq_self]

/-- A host that owes some sprites the same changes is up to date when it has heard of them. -/
theorem hear_notices (mirror : Mirror) (hr : .registered ∉ changes) (ids : List SpriteId)
    (hin : ∀ id ∈ ids, w.Owes changes mirror id) (hout : ∀ id ∉ ids, mirror id = w.mirror id) :
    mirror.hearAll (ids.flatMap fun id => w.notice id changes) = w.mirror := by
  induction ids generalizing mirror with
  | nil => exact funext fun id => hout id (List.not_mem_nil)
  | cons i ids ih =>
    rw [List.flatMap_cons, Mirror.hearAll_append, hear_notice hr (hin i List.mem_cons_self)]
    refine ih _ (fun id hid => ?_) fun id hid => ?_
    · by_cases h : id = i
      · subst h
        exact owes_of_eq (Function.update_self _ _ _) changes
      · have ho := hin id (List.mem_cons_of_mem i hid)
        unfold Owes at ho ⊢
        rwa [Function.update_of_ne h]
    · by_cases h : id = i
      · subst h
        exact Function.update_self _ _ _
      · rw [Function.update_of_ne h]
        exact hout id (List.not_mem_cons_of_ne_of_not_mem h hid)

/-- A change of one figure is mirrored if the notice lists all that it does. -/
theorem hear_update (f : Figure → Figure) (hw : w'.cast = w.cast.update id f)
    (hr : .registered ∉ changes)
    (hf : ∀ g, g.snapshot.copy.redraw changes (f g).snapshot = (f g).snapshot.copy) :
    w.mirror.hearAll (w'.notice id changes) = w'.mirror := by
  have h := hear_notices (w := w') w.mirror hr [id] ?_ ?_
  · simpa using h
  · intro i hi
    obtain rfl := List.mem_singleton.1 hi
    unfold Owes World.mirror
    rw [hw, Cast.find?_update_self]
    rcases w.cast.find? i with _ | m
    · rfl
    · exact ⟨_, rfl, hf m.figure⟩
  · intro i hi
    have hne : i ≠ id := fun h => hi (List.mem_singleton.2 h)
    simp only [World.mirror, hw, Cast.find?_update_of_ne hne]

/-- Redrawing a sprite that has not changed changes no copy. -/
theorem hear_unchanged (w : World) (id : SpriteId) :
    w.mirror.hearAll (w.notice id []) = w.mirror := by
  rw [hear_notice (List.not_mem_nil) (owes_of_eq rfl []), Function.update_eq_self]

/-! ## Strikes -/

variable (settings : Settings) (now : Nat)

theorem hear_strike (w : World) (id : SpriteId) :
    w.mirror.hearAll (w.strike settings now id).2 = (w.strike settings now id).1.mirror := by
  unfold strike
  split
  · rfl
  · exact hear_update (·.strike w.alarms.next) rfl (by decide) fun g => rfl

theorem hear_strikeAll : ∀ (ids : List SpriteId) (w : World),
    w.mirror.hearAll (strikeAll settings now ids w).2 = (strikeAll settings now ids w).1.mirror
  | [], _ => rfl
  | id :: ids, w => by
    simp only [strikeAll, Mirror.hearAll_append, hear_strike]
    exact hear_strikeAll ids _

theorem hear_scan (w : World) :
    w.mirror.hearAll (w.scan settings now).2.1 = (w.scan settings now).1.mirror :=
  hear_strikeAll settings now _ w

theorem hear_drain (w : World) :
    w.mirror.hearAll (w.drain settings now).2.1 = (w.drain settings now).1.mirror :=
  hear_strikeAll settings now _ { w with checks := .empty }

/-! ## Blocks, stops and alarms -/

theorem registered_not_mem_changesOf (c : Command) : .registered ∉ changesOf c := by
  cases c <;> simp [changesOf]

theorem hear_apply (w : World) (m : Member) (c : Command) :
    w.mirror.hearAll ((w.apply settings now m c).notice m.id (changesOf c))
      = (w.apply settings now m c).mirror := by
  have hr := registered_not_mem_changesOf c
  cases c with
  | move steps =>
    have hwalk : ∀ g : Figure, g.snapshot.copy.redraw [.position] (g.walk steps).snapshot
        = (g.walk steps).snapshot.copy := by
      intro g
      unfold Figure.walk
      split <;> rfl
    simp only [apply]
    split <;> exact hear_update (·.walk steps) rfl hr hwalk
  | turn degrees => exact hear_update (·.turn degrees) rfl hr fun g => rfl
  | goTo x y => exact hear_update (·.goTo x y) rfl hr fun g => rfl
  | say text secs => exact hear_update (·.say text w.alarms.next) rfl hr fun g => rfl
  | think text secs => exact hear_update (·.say text w.alarms.next) rfl hr fun g => rfl
  | loop times => exact hear_unchanged w m.id
  | unknown name value => exact hear_unchanged w m.id

theorem hear_execute (w : World) (m : Member) (c : Command) :
    w.mirror.hearAll (w.execute settings now m c).2 = (w.execute settings now m c).1.mirror := by
  unfold execute
  dsimp only
  split
  · rw [Mirror.hearAll_append, hear_apply]
    exact hear_scan settings now _
  · exact hear_apply settings now w m c

theorem mirror_setLooping (w : World) (id : SpriteId) (generation : Nat) (looping : Bool) :
    (w.setLooping id generation looping).mirror = w.mirror := by
  funext i
  simp only [World.mirror, setLooping, Cast.find?_updateCurrent, Option.map_map]
  refine Option.map_congr fun m _ => ?_
  simp only [Function.comp_apply]
  split <;> rfl

/-- A stop is heard of by those who spoke. -/
theorem hear_hushAll (w : World) : w.mirror.hearAll w.hushAll.2 = w.hushAll.1.mirror := by
  have hfind : ∀ i, w.hushAll.1.cast.find? i
      = (w.cast.find? i).map fun m => { m with figure := m.figure.hush } :=
    fun i => Cast.find?_mapFigures _
  have hr : Change.registered ∉ [Change.message] := by decide
  have h := hear_notices (w := w.hushAll.1) w.mirror hr
    (w.speakers.map (·.id)) ?_ ?_
  · rwa [List.flatMap_map] at h
  · intro i _
    unfold Owes World.mirror
    rw [hfind]
    rcases w.cast.find? i with _ | m
    · rfl
    · exact ⟨_, rfl, rfl⟩
  · intro i hi
    simp only [World.mirror, hfind]
    rcases hm : w.cast.find? i with _ | m
    · rfl
    · have hsilent : m.figure.bubble = none := by
        by_contra hb
        refine hi (List.mem_map.2 ⟨m, List.mem_filter.2 ⟨Cast.mem_of_find? hm, ?_⟩,
          Cast.id_of_find? hm⟩)
        exact Option.isSome_iff_ne_none.2 hb
      simp [Figure.snapshot, Snapshot.copy, Figure.hush, hsilent]

theorem hear_ring (w : World) (alarm : AlarmId) (expiry : Expiry) :
    w.mirror.hearAll (w.ring alarm expiry).2 = (w.ring alarm expiry).1.mirror := by
  unfold ring
  split
  · rfl
  · cases expiry with
    | message id =>
      dsimp only
      split
      · exact hear_update (·.hush) rfl (by decide) fun g => rfl
      · rfl
    | highlight id =>
      dsimp only
      split
      · exact hear_update (·.dim) rfl (by decide) fun g => rfl
      · rfl

/-! ## Calls and deeds -/

theorem hear_register (w : World) (id : SpriteId) (position : Point) (script : Script)
    (target : String) :
    w.mirror.hearAll (w.reply settings now (.register id position script target)).notices
      = (w.reply settings now (.register id position script target)).world.mirror := by
  have hself : ∃ m, (w.cast.register id target position script).2.find? id = some m := by
    rcases h : w.cast.find? id with _ | m
    · exact ⟨_, Cast.find?_register_of_none h target position script⟩
    · exact ⟨_, Cast.find?_register_of_some h target position script⟩
  obtain ⟨m, hm⟩ := hself
  funext i
  simp only [reply, notice, hm, Mirror.hearAll, List.foldl_cons, List.foldl_nil, Mirror.hear]
  by_cases hi : i = id
  · subst hi
    simp [World.mirror, hm]
  · rw [Function.update_of_ne hi]
    simp only [World.mirror, Cast.find?_register_of_ne hi]

theorem hear_unregister (w : World) (id : SpriteId) :
    w.mirror.hearAll (w.unregister id).2.1 = (w.unregister id).1.mirror := by
  funext i
  have hi : (w.unregister id).1.mirror i = if i = id then none else w.mirror i := by
    simp only [World.mirror, unregister_cast, Cast.find?_remove]
    split <;> rfl
  rw [hi]
  unfold unregister
  dsimp only
  split
  · rename_i hm
    split
    · rename_i h
      subst h
      simp [World.mirror, hm]
    · rfl
  · simp [Mirror.hearAll, Mirror.hear, Function.update_apply]

theorem mirror_setScript (w : World) (id : SpriteId) (script : Script) :
    (w.reply settings now (.setScript id script)).world.mirror = w.mirror := by
  funext i
  simp only [reply, World.mirror]
  by_cases hi : i = id
  · subst hi
    rw [Cast.find?_setScript_self, Option.map_map]
    rfl
  · rw [Cast.find?_setScript_of_ne hi]

theorem hear_reply (w : World) (c : Call) :
    w.mirror.hearAll (w.reply settings now c).notices = (w.reply settings now c).world.mirror := by
  cases c with
  | register id position script target =>
    exact hear_register settings now w id position script target
  | unregister id => exact hear_unregister w id
  | setPosition id position =>
    exact hear_update (fun f => { f with position := position }) rfl (by decide) fun g => rfl
  | setScript id script => exact (mirror_setScript settings now w id script).symm
  | refresh id => exact hear_unchanged w id
  | queueCheck id =>
    simp only [reply]
    split <;> rfl
  | checkAll => exact hear_scan settings now w
  | drainChecks => exact hear_drain settings now w
  | stop => exact hear_hushAll { w with runs := w.runs.stop }
  | _ => rfl

/-- Hearing of a deed keeps a mirror up to date. -/
theorem hear_perform (w : World) (d : Deed) :
    w.mirror.hearAll (w.perform settings now d).2 = (w.perform settings now d).1.mirror := by
  cases d with
  | answer c => exact hear_reply settings now w c
  | begin run =>
    simp only [perform]
    split <;> rfl
  | execute r b =>
    simp only [perform]
    split
    · exact hear_execute settings now w _ _
    · rfl
  | mark r looping => exact (mirror_setLooping w r.id r.generation looping).symm
  | drain r => exact hear_drain settings now w
  | ring alarm expiry => exact hear_ring w alarm expiry
  | _ => rfl

end World

end SpriteCanvas
