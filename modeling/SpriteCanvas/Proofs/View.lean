import SpriteCanvas.Proofs.Quiet
import SpriteCanvas.Proofs.Settling
import SpriteCanvas.Proofs.Sight

/-!
# The view of a sprite

The view of a sprite is its sight and what the host has heard of it.  A deed that is not about the
sprite leaves the view as it is (`Scene.view_perform_of_spares`), and so does an alarm that is not
in the slot of its message (`Scene.view_rings_of_stale`).  The turn of the alarms makes the same of
the same view (`Show.view_alarmTurn_congr`).
-/

namespace SpriteCanvas

/-! ## What is heard of a sprite -/

/-- Whether an event is about a sprite; the answer to a call in reaction is about nobody. -/
def Event.isAbout (id : SpriteId) : Event → Bool
  | .update u _ => u.id = id
  | .removed i _ => i = id
  | .reaction _ => false

namespace Audience

/-- What a host has recorded of a sprite, the latest first. -/
def heardOf (a : Audience) (id : SpriteId) : List Event := a.recorded.filter (·.isAbout id)

/-- What a host that listens in a way records of a notice. -/
def eventOf? (listening : Listening) (now : Nat) : Notice → Option Event
  | .update u => if listening = .ignoring then none else some (.update u now)
  | .removed id target => if listening = .recording then some (.removed id target) else none

variable {a : Audience} {id : SpriteId} (now : Nat)

theorem listening_hear (a : Audience) (n : Notice) : (a.hear now n).2.listening = a.listening := by
  cases n with
  | update u =>
    simp only [hear]
    split <;> rfl
  | removed i target =>
    simp only [hear]
    split <;> rfl

theorem heardOf_hear (a : Audience) (n : Notice) (id : SpriteId) :
    (a.hear now n).2.heardOf id
      = ((about id [n]).filterMap (eventOf? a.listening now)).reverse ++ a.heardOf id := by
  cases n with
  | update u =>
    by_cases hl : a.listening = .ignoring <;> by_cases hid : u.id = id <;>
      simp [hear, heardOf, eventOf?, record, about, Event.isAbout, Notice.id, hl, hid]
  | removed i target =>
    by_cases hl : a.listening = .recording <;> by_cases hid : i = id <;>
      simp [hear, heardOf, eventOf?, record, about, Event.isAbout, Notice.id, hl, hid]

end Audience

/-- What a scene holds of a sprite, and how the host listens. -/
structure View where
  sight : Sight
  listening : Listening
  heard : List Event

/-- The view with another sight, after some notices. -/
def View.after (v : View) (now : Nat) (sight : Sight) (ns : List Notice) : View where
  sight := sight
  listening := v.listening
  heard := (ns.filterMap (Audience.eventOf? v.listening now)).reverse ++ v.heard

namespace Scene

def view (s : Scene) (id : SpriteId) : View :=
  ⟨s.world.sight id, s.audience.listening, s.audience.heardOf id⟩

/-- The host never calls back, and the alarms are those of what is shown. -/
structure Fit (now : Nat) (s : Scene) : Prop where
  quiet : s.audience.waiting = []
  kept : ∃ table, s.world.Kept [] now table

variable {settings : Settings} {now : Nat} {s t : Scene} {id : SpriteId} {d : Deed}

theorem view_tells : ∀ (ns : List Notice) {s : Scene}, s.audience.waiting = [] →
    (s.run settings now (ns.map .tell)).view id
      = (s.view id).after now (s.world.sight id) (about id ns)
  | [], s, _ => by
    rw [List.map_nil, run]
    rfl
  | n :: ns, s, h => by
    obtain ⟨hc, hw⟩ := Audience.hear_quiet now h n
    rw [List.map_cons, run, hc, List.map_nil, List.nil_append, view_tells ns hw]
    have ha : about id (n :: ns) = about id [n] ++ about id ns := about_append id [n] ns
    simp only [view, View.after, Audience.heardOf_hear, Audience.listening_hear, ha,
      List.filterMap_append, List.reverse_append, List.append_assoc]

/-- A deed puts a new sight in the view, and what is told of the sprite. -/
theorem view_perform (h : s.audience.waiting = []) (d : Deed) :
    (s.perform settings now d).view id
      = (s.view id).after now ((s.world.perform settings now d).1.sight id)
          (about id (s.world.perform settings now d).2) :=
  view_tells _ h

/-- What the host has heard of a sprite stays heard. -/
theorem heardOf_performAll : ∀ (ds : List Deed) {s : Scene}, s.audience.waiting = [] →
    s.audience.heardOf id <:+ (s.performAll settings now ds).audience.heardOf id
  | [], _, _ => List.suffix_rfl
  | d :: ds, s, h => by
    refine List.IsSuffix.trans ?_ (heardOf_performAll ds (perform_quiet settings now h d).2)
    exact ⟨_, (congrArg View.heard (view_perform h d)).symm⟩

theorem view_perform_of (h : s.audience.waiting = [])
    (hd : World.Spares id s.world (s.world.perform settings now d)) :
    (s.perform settings now d).view id = s.view id := by
  rw [view_perform h, hd.sight, hd.told]
  rfl

/-- A deed that is not about a sprite leaves its view as it is. -/
theorem view_perform_of_spares (hr : settings.detector.OutOfReach) (h : s.Fit now)
    (hd : d.PassesBy id) : (s.perform settings now d).view id = s.view id := by
  obtain ⟨table, hk⟩ := h.kept
  exact view_perform_of h.quiet (World.spares_perform now hr hk hd)

theorem view_perform_congr {d' : Deed} (hs : s.audience.waiting = [])
    (ht : t.audience.waiting = []) (hv : s.view id = t.view id)
    (hm : World.Matches id (s.world.perform settings now d) (t.world.perform settings now d')) :
    (s.perform settings now d).view id = (t.perform settings now d').view id := by
  rw [view_perform hs, view_perform ht, hv, hm.sight, hm.told]

/-- What is done outside the turn of the alarms keeps a scene fit. -/
theorem Fit.perform (h : s.Fit now) (hc : d ≠ .collect) (hr : ∀ k e, d ≠ .ring k e) :
    (s.perform settings now d).Fit now := by
  obtain ⟨table, hk⟩ := h.kept
  obtain ⟨hw, hq⟩ := perform_quiet settings now h.quiet d
  refine ⟨hq, ?_⟩
  rw [hw]
  cases d with
  | answer c => exact ⟨_, World.kept_reply hk c⟩
  | begin run =>
    simp only [World.perform]
    split <;> exact ⟨table, hk⟩
  | execute r b =>
    simp only [World.perform]
    split
    · rename_i m hm
      exact ⟨_, World.kept_execute hk hm b⟩
    · exact ⟨table, hk⟩
  | mark r looping => exact ⟨table, World.kept_setLooping hk r.id r.generation looping⟩
  | drain r =>
    exact ⟨_, World.kept_strikeAll (w := { s.world with checks := .empty }) settings now _ hk⟩
  | collect => exact absurd rfl hc
  | ring k e => exact absurd rfl (hr k e)
  | _ => exact ⟨table, hk⟩

theorem Fit.perform_of_role {r : Role} (h : s.Fit now) (hd : d.role? = some r) :
    (s.perform settings now d).Fit now :=
  h.perform (by rintro rfl; cases hd) (by rintro k e rfl; cases hd)

end Scene

/-! ## Alarms -/

namespace World

variable {w v : World} {id : SpriteId} {clock : Nat} {table : Timetable} {j k : AlarmId}
  {e : Expiry}

/-- An alarm that is not in the slot of a sprite's message leaves an unlit sprite as it is. -/
theorem ring_of_stale (hl : w.slots (.highlight id) = none)
    (hk : e = .message id → w.slots e ≠ some k) :
    (w.ring k e).1.cast.find? id = w.cast.find? id ∧ about id (w.ring k e).2 = [] := by
  by_cases hs : w.slots e = some k
  · have hi : e.sprite ≠ id := by
      cases e with
      | message i => exact fun h => hk (congrArg _ h) hs
      | highlight i =>
        intro h
        rw [show i = id from h, hl] at hs
        cases hs
    unfold ring
    split
    · exact ⟨rfl, rfl⟩
    · cases e with
      | message i =>
        dsimp only
        split
        · exact ⟨Cast.find?_update_of_ne hi.symm _, about_notice_of_ne hi _ _⟩
        · exact ⟨rfl, rfl⟩
      | highlight i =>
        dsimp only
        split
        · exact ⟨Cast.find?_update_of_ne hi.symm _, about_notice_of_ne hi _ _⟩
        · exact ⟨rfl, rfl⟩
  · rw [ring_stale hs]
    exact ⟨rfl, rfl⟩

/-- The alarm of a message ends it and tells the host. -/
theorem ring_message (h : w.slots (.message id) = some k) :
    w.ring k (.message id)
      = (w.updateFigure id (·.hush), (w.updateFigure id (·.hush)).notice id [.message]) := by
  obtain ⟨m, hm, hk⟩ := slots_eq_some h
  have hm : w.cast.find? id = some m := hm
  simp only [ring, Expiry.sprite, hm, hk, if_true]

theorem matches_ring (hs : w.sight id = v.sight id) (hw : w.slots (.message id) = some j)
    (hv : v.slots (.message id) = some k) :
    Matches id (w.ring j (.message id)) (v.ring k (.message id)) := by
  obtain ⟨hl, he⟩ := sight_eq_iff.1 hs
  have hl := Cast.look?_update hl fun _ _ hs => Figure.snapshot_hush hs
  rw [ring_message hw, ring_message hv]
  exact ⟨sight_eq_iff.2 ⟨hl, he⟩, congrArg (about id) (notice_congr hl _)⟩

/-- Taking the alarms that are due leaves the ends that are still to come. -/
theorem sight_collect (h : w.Kept [] clock table) (settings : Settings) (now : Nat)
    (id : SpriteId) :
    (w.perform settings now .collect).1.sight id
      = ⟨w.cast.look? id, fun deadline => w.EndsAt id deadline ∧ now < deadline⟩ := by
  have hrest := (h.sound.schedule.takeDue now).2.1
  refine congrArg (Sight.mk _) (funext fun deadline => propext ?_)
  exact (exists_congr fun k => hrest k (.message id) deadline).trans exists_and_right

end World

namespace Scene

variable {settings : Settings} {now : Nat} {s t : Scene} {id : SpriteId} {j k : AlarmId}
  {e : Expiry}

theorem perform_ring_of_stale (settings : Settings) (now : Nat) (h : s.audience.waiting = [])
    (hl : s.world.slots (.highlight id) = none)
    (hk : e = .message id → s.world.slots e ≠ some k) :
    (s.perform settings now (.ring k e)).view id = s.view id
      ∧ (s.perform settings now (.ring k e)).world.cast.find? id = s.world.cast.find? id := by
  obtain ⟨hf, hn⟩ := World.ring_of_stale hl hk
  obtain ⟨hw, -⟩ := perform_quiet settings now h (.ring k e)
  refine ⟨view_perform_of h (World.spares_of_alarms (World.ring_alarms _ k e) hf hn), ?_⟩
  rw [hw]
  exact hf

theorem slots_eq_of_find? {w v : World} (h : w.cast.find? id = v.cast.find? id) :
    w.slots (.message id) = v.slots (.message id)
      ∧ w.slots (.highlight id) = v.slots (.highlight id) := by
  simp only [World.slots, slotsOf, Cast.bubble?, Cast.highlight?, h, and_self]

/-- Alarms that are not in the slot of a sprite's message ring for nothing in its view. -/
theorem view_rings_of_stale : ∀ (due : List (AlarmId × Expiry)) {s : Scene},
    s.audience.waiting = [] → s.world.slots (.highlight id) = none →
    (∀ k, s.world.slots (.message id) = some k → (k, .message id) ∉ due) →
    (s.performAll settings now (due.map fun a => .ring a.1 a.2)).view id = s.view id
  | [], _, _, _, _ => rfl
  | (k, e) :: due, s, h, hl, hk => by
    obtain ⟨hv, hf⟩ := perform_ring_of_stale settings now (k := k) (e := e) h hl
      fun he hs => hk k (he ▸ hs) (he ▸ List.mem_cons_self)
    obtain ⟨hm, hh⟩ := slots_eq_of_find? hf
    refine (view_rings_of_stale due (perform_quiet settings now h _).2 (hh.trans hl) ?_).trans hv
    exact fun j hj hmem => hk j (hm.symm.trans hj) (List.mem_cons_of_mem _ hmem)

/-- If the alarm of a sprite's message is among those that ring, the message ends. -/
theorem view_rings_of_held : ∀ (due : List (AlarmId × Expiry)) {s : Scene},
    s.audience.waiting = [] → s.world.slots (.highlight id) = none →
    s.world.slots (.message id) = some k → (k, .message id) ∈ due →
    (s.performAll settings now (due.map fun a => .ring a.1 a.2)).view id
      = (s.perform settings now (.ring k (.message id))).view id
  | [], _, _, _, _, hmem => absurd hmem List.not_mem_nil
  | (j, e) :: due, s, h, hl, hk, hmem => by
    have hq := (perform_quiet settings now h (.ring j e)).2
    by_cases hhead : e = .message id ∧ s.world.slots e = some j
    · obtain ⟨rfl, hj⟩ := hhead
      obtain rfl : k = j := Option.some.inj (hk.symm.trans hj)
      have hw := (perform_quiet settings now h (.ring k (.message id))).1
      have hs : (s.perform settings now (.ring k (.message id))).world.slots
          = Function.update s.world.slots (.message id) none := by
        rw [hw]
        exact (World.ring_held hk).2
      refine view_rings_of_stale due hq ?_ fun i hi => ?_
      · rw [hs]
        exact (Function.update_of_ne (by exact nofun) ..).trans hl
      · rw [hs, Function.update_self] at hi
        cases hi
    · obtain ⟨hv, hf⟩ := perform_ring_of_stale settings now (k := j) (e := e) h hl
        fun he hs => hhead ⟨he, hs⟩
      obtain ⟨hm, hh⟩ := slots_eq_of_find? hf
      have hmem : (k, .message id) ∈ due := by
        refine (List.mem_cons.1 hmem).resolve_left fun heq => hhead ?_
        obtain ⟨rfl, rfl⟩ := Prod.mk.inj heq
        exact ⟨rfl, hk⟩
      refine (view_rings_of_held due hq (hh.trans hl) (hm.trans hk) hmem).trans ?_
      exact view_perform_congr hq h hv
        (World.matches_ring (congrArg View.sight hv) (hm.trans hk) hk)

/-- The end of the message of a sprite has come. -/
def IsOver (s : Scene) (id : SpriteId) (now : Nat) : Prop :=
  ∃ deadline ≤ now, s.world.EndsAt id deadline

theorem perform_collect (s : Scene) : s.perform settings now .collect
    = { s with world := (s.world.perform settings now .collect).1 } :=
  deliver_nil settings now _

end Scene

namespace Show

variable {settings : Settings} {now : Nat} {x y : Show} {id : SpriteId}

/-- The turn of the alarms leaves a sprite alone whose message is not over. -/
theorem view_alarmTurn_of_not_over (hx : x.scene.Fit now)
    (hl : x.world.slots (.highlight id) = none) (ho : ¬ x.scene.IsOver id now) :
    (x.alarmTurn settings now).scene.view id = x.scene.view id := by
  obtain ⟨table, hk⟩ := hx.kept
  have hc : (x.scene.perform settings now .collect).view id = x.scene.view id := by
    rw [Scene.perform_collect]
    refine congrArg (View.mk · _ _) ((World.sight_collect hk settings now id).trans ?_)
    refine congrArg (Sight.mk _) (funext fun deadline => propext ⟨And.left, fun he => ⟨he, ?_⟩⟩)
    exact Nat.lt_of_not_le fun hle => ho ⟨deadline, hle, he⟩
  rw [alarmTurn_scene, alarmDeeds, Scene.performAll_cons, ← hc]
  refine Scene.view_rings_of_stale _ ?_ ?_ fun k _ hmem => ho ?_
  · exact (Scene.perform_quiet settings now hx.quiet _).2
  · rw [Scene.perform_collect]
    exact hl
  · obtain ⟨deadline, hle, ha⟩ := (hk.sound.schedule.takeDue now).2.2 k _ |>.1 hmem
    exact ⟨deadline, hle, k, ha⟩

/-- The turn of the alarms ends the message of a sprite if it is over. -/
theorem view_alarmTurn_of_over (settings : Settings) (hx : x.scene.Fit now)
    (hl : x.world.slots (.highlight id) = none) (ho : x.scene.IsOver id now) :
    ∃ k, x.world.slots (.message id) = some k ∧ (x.alarmTurn settings now).scene.view id
      = ((x.scene.perform settings now .collect).perform settings now (.ring k (.message id))).view
        id := by
  obtain ⟨table, hk⟩ := hx.kept
  obtain ⟨deadline, hle, k, ha⟩ := ho
  have hs : x.world.slots (.message id) = some k := (hk.armed k _ deadline ha).1
  refine ⟨k, hs, ?_⟩
  rw [alarmTurn_scene, alarmDeeds, Scene.performAll_cons]
  refine Scene.view_rings_of_held _ (Scene.perform_quiet settings now hx.quiet _).2 ?_ ?_
    ((hk.sound.schedule.takeDue now).2.2 k _ |>.2 ⟨deadline, hle, ha⟩)
  · rw [Scene.perform_collect]
    exact hl
  · rw [Scene.perform_collect]
    exact hs

theorem view_alarmTurn_congr (hx : x.scene.Fit now) (hy : y.scene.Fit now)
    (hlx : x.world.slots (.highlight id) = none) (hly : y.world.slots (.highlight id) = none)
    (hv : x.scene.view id = y.scene.view id) (hox : x.scene.IsOver id now)
    (hoy : y.scene.IsOver id now) :
    (x.alarmTurn settings now).scene.view id = (y.alarmTurn settings now).scene.view id := by
  obtain ⟨j, hj, hx'⟩ := view_alarmTurn_of_over settings hx hlx hox
  obtain ⟨k, hk, hy'⟩ := view_alarmTurn_of_over settings hy hly hoy
  obtain ⟨tx, hkx⟩ := hx.kept
  obtain ⟨ty, hky⟩ := hy.kept
  rw [hx', hy', Scene.perform_collect, Scene.perform_collect]
  have hsight : (x.scene.world.perform settings now .collect).1.sight id
      = (y.scene.world.perform settings now .collect).1.sight id := by
    obtain ⟨hl, he⟩ := World.sight_eq_iff.1 (congrArg View.sight hv)
    rw [World.sight_collect hkx, World.sight_collect hky, hl, he]
  refine Scene.view_perform_congr hx.quiet hy.quiet ?_ (World.matches_ring hsight hj hk)
  obtain ⟨-, hlisten, hheard⟩ := View.mk.inj hv
  simp only [Scene.view, hsight, hlisten, hheard]

end Show

end SpriteCanvas
