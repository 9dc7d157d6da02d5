import SpriteCanvas.Proofs.Hearing
import SpriteCanvas.Proofs.Timekeeping
import SpriteCanvas.Proofs.Untouched

/-!
# The sight of a sprite

The sight of a sprite is all that a world holds of it but for the numbers that are given out: where
it is shown, its script, its snapshot, and when its message ends.  Where nobody is ever struck, a
deed that is not about a sprite leaves its sight as it is and tells nothing of it
(`World.spares_perform`).  What is about the sprite makes the same of the same sight, whatever else
is in the worlds (`World.matches_reply`, `World.matches_execute`, `World.sight_setLooping`).
-/

namespace SpriteCanvas

namespace Figure

variable {f g : Figure}

/-! ## Figures that look the same -/

theorem snapshot_eq_iff : f.snapshot = g.snapshot ↔ f.position = g.position ∧ f.heading = g.heading
    ∧ f.facing = g.facing ∧ f.bubble.map (·.text) = g.bubble.map (·.text)
    ∧ f.highlight.isSome = g.highlight.isSome ∧ f.looping = g.looping := by
  simp only [snapshot, Snapshot.mk.injEq]

theorem snapshot_walk (h : f.snapshot = g.snapshot) (steps : Float) :
    (f.walk steps).snapshot = (g.walk steps).snapshot := by
  obtain ⟨hp, hh, hf, hm, hl, ho⟩ := snapshot_eq_iff.1 h
  unfold walk
  split
  · exact snapshot_eq_iff.2 ⟨by rw [hp, hh, hf], hh, hf, hm, hl, ho⟩
  · exact h

theorem snapshot_turn (h : f.snapshot = g.snapshot) (degrees : Float) :
    (f.turn degrees).snapshot = (g.turn degrees).snapshot := by
  obtain ⟨hp, hh, hf, hm, hl, ho⟩ := snapshot_eq_iff.1 h
  exact snapshot_eq_iff.2 ⟨hp, congrArg (·.turned degrees) hh, hf, hm, hl, ho⟩

theorem snapshot_goTo (h : f.snapshot = g.snapshot) (x y : Float) :
    (f.goTo x y).snapshot = (g.goTo x y).snapshot := by
  obtain ⟨hp, hh, hf, hm, hl, ho⟩ := snapshot_eq_iff.1 h
  exact snapshot_eq_iff.2 ⟨by simp only [goTo, hp], hh, hf, hm, hl, ho⟩

theorem snapshot_say (h : f.snapshot = g.snapshot) (text : String) (j k : AlarmId) :
    (f.say text j).snapshot = (g.say text k).snapshot := by
  obtain ⟨hp, hh, hf, -, hl, ho⟩ := snapshot_eq_iff.1 h
  exact snapshot_eq_iff.2 ⟨hp, hh, hf, rfl, hl, ho⟩

theorem snapshot_hush (h : f.snapshot = g.snapshot) : f.hush.snapshot = g.hush.snapshot := by
  obtain ⟨hp, hh, hf, -, hl, ho⟩ := snapshot_eq_iff.1 h
  exact snapshot_eq_iff.2 ⟨hp, hh, hf, rfl, hl, ho⟩

theorem snapshot_moved (h : f.snapshot = g.snapshot) (position : Point) :
    { f with position := position }.snapshot = { g with position := position }.snapshot := by
  obtain ⟨-, hh, hf, hm, hl, ho⟩ := snapshot_eq_iff.1 h
  exact snapshot_eq_iff.2 ⟨rfl, hh, hf, hm, hl, ho⟩

theorem snapshot_looping (h : f.snapshot = g.snapshot) (looping : Bool) :
    { f with looping := looping }.snapshot = { g with looping := looping }.snapshot := by
  obtain ⟨hp, hh, hf, hm, hl, -⟩ := snapshot_eq_iff.1 h
  exact snapshot_eq_iff.2 ⟨hp, hh, hf, hm, hl, rfl⟩

end Figure

/-- Where a member is shown, its script and its snapshot. -/
def Member.look (m : Member) : String × Script × Snapshot := (m.target, m.script, m.figure.snapshot)

/-- The look of the sprite of a name. -/
def Cast.look? (c : Cast) (id : SpriteId) : Option (String × Script × Snapshot) :=
  (c.find? id).map (·.look)

namespace Cast

variable {c c' : Cast} {id i : SpriteId}

theorem look?_congr (h : c'.find? id = c.find? id) : c'.look? id = c.look? id :=
  congrArg (Option.map Member.look) h

/-- Both sprites are unknown, or they look the same. -/
theorem look?_cases (h : c.look? id = c'.look? id) :
    (c.find? id = none ∧ c'.find? id = none)
      ∨ ∃ m n, c.find? id = some m ∧ c'.find? id = some n ∧ m.look = n.look := by
  unfold look? at h
  rcases hm : c.find? id with _ | m <;> rcases hn : c'.find? id with _ | n <;> rw [hm, hn] at h
  · exact .inl ⟨rfl, rfl⟩
  · cases h
  · cases h
  · exact .inr ⟨m, n, rfl, rfl, Option.some.inj h⟩

theorem look?_update (h : c.look? id = c'.look? id) {f g : Figure → Figure}
    (hfg : ∀ a b : Figure, a.snapshot = b.snapshot → (f a).snapshot = (g b).snapshot) :
    (c.update id f).look? id = (c'.update id g).look? id := by
  unfold look?
  rw [find?_update_self, find?_update_self]
  rcases look?_cases h with ⟨hm, hn⟩ | ⟨m, n, hm, hn, hl⟩
  · rw [hm, hn]
    rfl
  · simp only [Member.look, Prod.mk.injEq] at hl
    simp only [hm, hn, Option.map_some, Member.look, hl.1, hl.2.1, hfg _ _ hl.2.2]

theorem look?_register (h : c.look? id = c'.look? id) (target : String) (position : Point)
    (script : Script) :
    (c.register id target position script).2.look? id
      = (c'.register id target position script).2.look? id := by
  unfold look?
  rcases look?_cases h with ⟨hm, hn⟩ | ⟨m, n, hm, hn, hl⟩
  · rw [find?_register_of_none hm, find?_register_of_none hn]
    rfl
  · simp only [Member.look, Prod.mk.injEq] at hl
    have hs := Figure.snapshot_looping (Figure.snapshot_moved hl.2.2 position) false
    rw [find?_register_of_some hm, find?_register_of_some hn]
    exact congrArg (fun s => some (target, script, s)) hs

theorem look?_setScript (h : c.look? id = c'.look? id) (script : Script) :
    (c.setScript id script).2.look? id = (c'.setScript id script).2.look? id := by
  unfold look?
  rw [find?_setScript_self, find?_setScript_self]
  rcases look?_cases h with ⟨hm, hn⟩ | ⟨m, n, hm, hn, hl⟩
  · rw [hm, hn]
    rfl
  · simp only [Member.look, Prod.mk.injEq] at hl
    simp only [hm, hn, Option.map_some, Member.look, hl.1, Figure.snapshot_looping hl.2.2]

theorem look?_remove (c : Cast) (id : SpriteId) : (c.remove id).look? id = none := by
  simp [look?, find?_remove]

theorem look?_hush (h : c.look? id = c'.look? id) :
    (c.mapFigures (·.figure.hush)).look? id = (c'.mapFigures (·.figure.hush)).look? id := by
  unfold look?
  rw [find?_mapFigures, find?_mapFigures]
  rcases look?_cases h with ⟨hm, hn⟩ | ⟨m, n, hm, hn, hl⟩
  · rw [hm, hn]
  · simp only [Member.look, Prod.mk.injEq] at hl
    simp only [hm, hn, Option.map_some, Member.look, hl.1, hl.2.1, Figure.snapshot_hush hl.2.2]

end Cast

/-- At most one member has a name. -/
theorem Member.filter_id (id : SpriteId) : ∀ {ms : List Member}, ms.Pairwise (·.id < ·.id) →
    ms.filter (·.id = id) = (ms.find? (·.id = id)).toList
  | [], _ => rfl
  | m :: ms, hs => by
    obtain ⟨hm, hs⟩ := List.pairwise_cons.1 hs
    by_cases hid : m.id = id
    · have hrest : ms.filter (·.id = id) = [] := by
        refine List.filter_eq_nil_iff.2 fun n hn => ?_
        simpa using fun h => Std.ne_of_lt (hm n hn) (hid.trans h.symm)
      rw [List.filter_cons_of_pos (by simpa using hid), List.find?_cons_of_pos (by simpa using hid),
        hrest]
      rfl
    · rw [List.filter_cons_of_neg (by simpa using hid), List.find?_cons_of_neg (by simpa using hid)]
      exact filter_id id hs

/-! ## Sights -/

/-- What a world holds of a sprite but for the numbers that are given out. -/
structure Sight where
  look : Option (String × Script × Snapshot)
  /-- When the message ends, if one is shown. -/
  ends : Nat → Prop

/-- The notices that are about a sprite. -/
def about (id : SpriteId) (ns : List Notice) : List Notice := ns.filter (·.id = id)

@[simp] theorem about_nil (id : SpriteId) : about id [] = [] := rfl

theorem about_append (id : SpriteId) (ns ns' : List Notice) :
    about id (ns ++ ns') = about id ns ++ about id ns' :=
  List.filter_append ..

theorem about_eq_nil {id : SpriteId} {ns : List Notice} (h : ∀ n ∈ ns, n.id ≠ id) :
    about id ns = [] :=
  List.filter_eq_nil_iff.2 fun n hn hid => h n hn (of_decide_eq_true hid)

namespace World

/-- The message of a sprite has an alarm that is armed for a time. -/
def EndsAt (w : World) (id : SpriteId) (deadline : Nat) : Prop :=
  ∃ k, w.alarms.Armed k (.message id) deadline

def sight (w : World) (id : SpriteId) : Sight := ⟨w.cast.look? id, w.EndsAt id⟩

variable {w w' v : World} {id i : SpriteId} {clock clock' : Nat} {table table' : Timetable}
  {m : Member}

theorem sight_eq_iff : w.sight id = v.sight id
    ↔ w.cast.look? id = v.cast.look? id ∧ w.EndsAt id = v.EndsAt id :=
  Iff.of_eq (Sight.mk.injEq ..)

/-- A message on show is over when the timetable says so. -/
theorem endsAt_iff (h : w.Kept [] clock table) (deadline : Nat) :
    w.EndsAt id deadline
      ↔ (w.slots (.message id)).isSome ∧ table (.message id) = some deadline := by
  constructor
  · rintro ⟨k, hk⟩
    obtain ⟨hs, ht⟩ := h.armed k _ deadline hk
    exact ⟨by rw [hs]; rfl, ht⟩
  · rintro ⟨hs, ht⟩
    obtain ⟨k, hk⟩ := Option.isSome_iff_exists.1 hs
    obtain ⟨deadline', ht', ha | ⟨hr, -⟩⟩ := h.held k _ hk
    · cases ht.symm.trans ht'
      exact ⟨k, ha⟩
    · cases hr

theorem isSome_slots_message (w : World) (id : SpriteId) :
    (w.slots (.message id)).isSome = (w.cast.look? id).any (·.2.2.message.isSome) := by
  rw [Cast.look?, slots, slotsOf, Cast.bubble?]
  rcases w.cast.find? id with _ | m
  · rfl
  · simp [Member.look, Figure.snapshot]

/-- As long as the look and the timetable stay, so does the end of the message. -/
theorem endsAt_eq (h : w.Kept [] clock table) (h' : w'.Kept [] clock' table')
    (hl : w'.cast.look? id = w.cast.look? id)
    (ht : table' (.message id) = table (.message id)) : w'.EndsAt id = w.EndsAt id := by
  funext deadline
  rw [propext (endsAt_iff h deadline), propext (endsAt_iff h' deadline), isSome_slots_message,
    isSome_slots_message, hl, ht]

theorem sight_eq_of_alarms (ha : w'.alarms = w.alarms) (hl : w'.cast.look? id = w.cast.look? id) :
    w'.sight id = w.sight id := by
  refine sight_eq_iff.2 ⟨hl, ?_⟩
  funext deadline
  rw [EndsAt, EndsAt, ha]

theorem notice_congr (h : w.cast.look? id = v.cast.look? id) (changes : List Change) :
    w.notice id changes = v.notice id changes := by
  unfold notice
  rcases Cast.look?_cases h with ⟨hm, hn⟩ | ⟨m, n, hm, hn, hl⟩
  · rw [hm, hn]
  · simp only [Member.look, Prod.mk.injEq] at hl
    simp only [hm, hn, hl.1, hl.2.2]

theorem about_notice_of_ne (h : i ≠ id) (w : World) (changes : List Change) :
    about id (w.notice i changes) = [] :=
  about_eq_nil fun _ hn hid => h ((id_of_mem_notice hn).symm.trans hid)

/-- What is done spares a sprite. -/
structure Spares (id : SpriteId) (w : World) (r : World × List Notice) : Prop where
  sight : r.1.sight id = w.sight id
  told : about id r.2 = []

/-- The same is done to a sprite in two worlds. -/
structure Matches (id : SpriteId) (r r' : World × List Notice) : Prop where
  sight : r.1.sight id = r'.1.sight id
  told : about id r.2 = about id r'.2

theorem Spares.refl (id : SpriteId) (w : World) : Spares id w (w, []) := ⟨rfl, rfl⟩

/-- What leaves the alarms and a sprite as they are spares it, unless the host is told of it. -/
theorem spares_of_alarms {ns : List Notice} (ha : w'.alarms = w.alarms)
    (hf : w'.cast.find? id = w.cast.find? id) (hn : about id ns = []) : Spares id w (w', ns) :=
  ⟨sight_eq_of_alarms ha (Cast.look?_congr hf), hn⟩

variable {settings : Settings} (now : Nat)

/-! ## What is not about the sprite -/

variable (settings) in
theorem find?_apply_of_ne (h : id ≠ m.id) (w : World) (c : Command) :
    (w.apply settings now m c).cast.find? id = w.cast.find? id := by
  cases c with
  | move steps =>
    simp only [apply]
    split <;> exact Cast.find?_update_of_ne h _
  | turn degrees => exact Cast.find?_update_of_ne h _
  | goTo x y => exact Cast.find?_update_of_ne h _
  | say text secs => exact Cast.find?_update_of_ne h _
  | think text secs => exact Cast.find?_update_of_ne h _
  | loop times => rfl
  | unknown name value => rfl

theorem retime_of_ne {j : SpriteId} (h : id ≠ j) (c : Command) :
    c.retime settings now j table (.message id) = table (.message id) := by
  unfold Command.retime
  rcases c.speech? settings now with _ | speech
  · rfl
  · exact Function.update_of_ne (fun he => h (Expiry.message.inj he)) _ _

theorem spares_execute (hr : settings.detector.OutOfReach) (hk : w.Kept [] clock table)
    (hm : w.cast.find? i = some m) (hi : i ≠ id) (c : Command) :
    Spares id w (w.execute settings now m c) := by
  have hid : m.id ≠ id := Cast.id_of_find? hm ▸ hi
  have hf := find?_apply_of_ne settings now hid.symm w c
  rw [execute_untouched now w hr]
  refine ⟨sight_eq_iff.2 ⟨Cast.look?_congr hf, ?_⟩, about_notice_of_ne hid _ _⟩
  exact endsAt_eq hk (kept_apply settings now hk hm c) (Cast.look?_congr hf)
    (retime_of_ne now hi.symm c)

theorem spares_unregister (hk : w.Kept [] clock table) (hi : i ≠ id) :
    Spares id w ((w.unregister i).1, (w.unregister i).2.1) := by
  have hl : (w.unregister i).1.cast.look? id = w.cast.look? id := by
    refine Cast.look?_congr ?_
    rw [unregister_cast, Cast.find?_remove, if_neg hi.symm]
  refine ⟨sight_eq_iff.2 ⟨hl, ?_⟩, ?_⟩
  · exact endsAt_eq hk (kept_unregister hk i) hl (if_neg hi.symm)
  · refine about_eq_nil fun n hn => ?_
    unfold unregister at hn
    dsimp only at hn
    split at hn
    · cases hn
    · obtain rfl := List.mem_singleton.1 hn
      exact hi

theorem find?_setLooping_of_ne (h : id ≠ i) (w : World) (generation : Nat) (looping : Bool) :
    (w.setLooping i generation looping).cast.find? id = w.cast.find? id := by
  simp only [setLooping, Cast.updateCurrent]
  split
  · exact Cast.find?_update_of_ne h _
  · rfl

end World

/-- The sprite that a call changes, or tells the host of. -/
def Call.subject? : Call → Option SpriteId
  | .register id _ _ _ | .unregister id | .setPosition id _ | .setScript id _ | .refresh id
  | .queueCheck id => some id
  | _ => none

/-- A deed that is not about a sprite; what rings is dealt with apart. -/
def Deed.PassesBy (id : SpriteId) : Deed → Prop
  | .answer c => c.subject? ≠ some id ∧ c ≠ .stop
  | .execute r _ | .mark r _ => r.id ≠ id
  | .collect | .ring _ _ => False
  | .tell _ | .begin _ | .drain _ | .leave _ | .finish _ => True

namespace World

variable {w v : World} {id i : SpriteId} {clock : Nat} {table : Timetable} {settings : Settings}
  (now : Nat)

theorem spares_reply (hr : settings.detector.OutOfReach) (hk : w.Kept [] clock table) {c : Call}
    (hi : c.subject? ≠ some id) (hc : c ≠ .stop) :
    Spares id w ((w.reply settings now c).world, (w.reply settings now c).notices) := by
  have hne : ∀ {i}, c.subject? = some i → i ≠ id := fun h heq => hi (heq ▸ h)
  cases c with
  | register i position script target =>
    have hi : i ≠ id := hne rfl
    exact spares_of_alarms rfl (Cast.find?_register_of_ne hi.symm target position script)
      (about_notice_of_ne hi _ _)
  | unregister i => exact spares_unregister hk (hne rfl)
  | setPosition i position =>
    have hi : i ≠ id := hne rfl
    exact spares_of_alarms rfl (Cast.find?_update_of_ne hi.symm _) (about_notice_of_ne hi _ _)
  | setScript i script =>
    exact spares_of_alarms rfl (Cast.find?_setScript_of_ne (hne rfl).symm script) rfl
  | refresh i => exact spares_of_alarms rfl rfl (about_notice_of_ne (hne rfl) _ _)
  | queueCheck i =>
    simp only [reply]
    split
    · exact spares_of_alarms rfl rfl rfl
    · exact .refl id w
  | checkAll =>
    simp only [reply, scan_untouched now w hr]
    exact .refl id w
  | drainChecks =>
    simp only [reply, drain_untouched now w hr]
    exact spares_of_alarms rfl rfl rfl
  | stop => exact absurd rfl hc
  | _ => exact .refl id w

/-- A deed that is not about a sprite spares it. -/
theorem spares_perform (hr : settings.detector.OutOfReach) (hk : w.Kept [] clock table) {d : Deed}
    (hd : d.PassesBy id) : Spares id w (w.perform settings now d) := by
  cases d with
  | answer c => exact spares_reply now hr hk hd.1 hd.2
  | begin run =>
    simp only [perform]
    split
    · exact spares_of_alarms rfl rfl rfl
    · exact .refl id w
  | execute r b =>
    simp only [perform]
    split
    · rename_i m hm
      exact spares_execute now hr hk hm hd b.command
    · exact .refl id w
  | mark r looping =>
    exact spares_of_alarms rfl (find?_setLooping_of_ne (Ne.symm hd) w _ looping) rfl
  | drain r =>
    simp only [perform, drain_untouched now w hr]
    exact spares_of_alarms rfl rfl rfl
  | finish run => exact spares_of_alarms rfl rfl rfl
  | tell n => exact .refl id w
  | leave r => exact .refl id w
  | collect => exact hd.elim
  | ring alarm expiry => exact hd.elim

/-! ## What is about the sprite -/

theorem retime_self {c : Command} {speech : String × Nat}
    (h : c.speech? settings now = some speech) :
    c.retime settings now id table (.message id) = some speech.2 := by
  rw [Command.retime, h]
  exact Function.update_self ..

theorem alarms_apply {c : Command} (h : c.speech? settings now = none) (w : World) (m : Member) :
    (w.apply settings now m c).alarms = w.alarms := by
  cases c with
  | move steps =>
    simp only [apply]
    split <;> rfl
  | say text secs => cases h
  | think text secs => cases h
  | _ => rfl

variable {m n : Member} {clock' : Nat} {table' : Timetable}

variable (settings) in
theorem look?_apply (h : w.cast.look? id = v.cast.look? id) (hm : m.id = id) (hn : n.id = id)
    (c : Command) :
    (w.apply settings now m c).cast.look? id = (v.apply settings now n c).cast.look? id := by
  subst hm
  cases c with
  | move steps =>
    have hl : (w.cast.update m.id (·.walk steps)).look? m.id
        = (v.cast.update n.id (·.walk steps)).look? m.id := by
      rw [hn]
      exact Cast.look?_update h fun _ _ hs => Figure.snapshot_walk hs steps
    simp only [apply]
    split <;> split <;> exact hl
  | turn degrees =>
    simp only [apply, hn]
    exact Cast.look?_update h fun _ _ hs => Figure.snapshot_turn hs degrees
  | goTo x y =>
    simp only [apply, hn]
    exact Cast.look?_update h fun _ _ hs => Figure.snapshot_goTo hs x y
  | say text secs =>
    simp only [apply, showMessage, hn]
    exact Cast.look?_update h fun _ _ hs => Figure.snapshot_say hs text _ _
  | think text secs =>
    simp only [apply, showMessage, hn]
    exact Cast.look?_update h fun _ _ hs => Figure.snapshot_say hs text _ _
  | loop times => exact h
  | unknown name value => exact h

variable (settings) in
/-- A command makes the same of the same sight. -/
theorem sight_apply (hk : w.Kept [] clock table) (hk' : v.Kept [] clock' table')
    (hs : w.sight id = v.sight id) (hm : w.cast.find? id = some m) (hn : v.cast.find? id = some n)
    (c : Command) : (w.apply settings now m c).sight id = (v.apply settings now n c).sight id := by
  obtain ⟨hl, he⟩ := sight_eq_iff.1 hs
  have hl := look?_apply settings now hl (Cast.id_of_find? hm) (Cast.id_of_find? hn) c
  refine sight_eq_iff.2 ⟨hl, ?_⟩
  rcases hc : c.speech? settings now with _ | speech
  · funext deadline
    rw [EndsAt, EndsAt, alarms_apply now hc, alarms_apply now hc]
    exact congrFun he deadline
  · refine endsAt_eq (kept_apply settings now hk' hn c) (kept_apply settings now hk hm c) hl ?_
    rw [retime_self now hc, retime_self now hc]

theorem matches_execute (hr : settings.detector.OutOfReach) (hk : w.Kept [] clock table)
    (hk' : v.Kept [] clock' table') (hs : w.sight id = v.sight id)
    (hm : w.cast.find? id = some m) (hn : v.cast.find? id = some n) (c : Command) :
    Matches id (w.execute settings now m c) (v.execute settings now n c) := by
  have h := sight_apply settings now hk hk' hs hm hn c
  rw [execute_untouched now w hr, execute_untouched now v hr]
  refine ⟨h, congrArg (about id) ?_⟩
  rw [Cast.id_of_find? hm, Cast.id_of_find? hn]
  exact notice_congr (sight_eq_iff.1 h).1 _

theorem sight_setLooping (hs : w.sight id = v.sight id) {generation generation' : Nat}
    (hc : w.cast.isCurrent id generation = v.cast.isCurrent id generation') (looping : Bool) :
    (w.setLooping id generation looping).sight id
      = (v.setLooping id generation' looping).sight id := by
  obtain ⟨hl, he⟩ := sight_eq_iff.1 hs
  refine sight_eq_iff.2 ⟨?_, he⟩
  simp only [setLooping, Cast.updateCurrent, hc]
  split
  · exact Cast.look?_update hl fun _ _ hs => Figure.snapshot_looping hs looping
  · exact hl

theorem about_notice_self (w : World) (id : SpriteId) (changes : List Change) :
    about id (w.notice id changes) = w.notice id changes :=
  List.filter_eq_self.2 fun _ hn => decide_eq_true (id_of_mem_notice hn)

theorem about_notices (w : World) (changes : List Change) (id : SpriteId) : ∀ ms : List Member,
    about id (ms.flatMap fun m => w.notice m.id changes)
      = (ms.filter (·.id = id)).flatMap fun m => w.notice m.id changes
  | [] => rfl
  | m :: ms => by
    rw [List.flatMap_cons, about_append, about_notices w changes id ms]
    by_cases hid : m.id = id
    · rw [List.filter_cons_of_pos (by simpa using hid), List.flatMap_cons, hid, about_notice_self]
    · rw [List.filter_cons_of_neg (by simpa using hid), about_notice_of_ne hid, List.nil_append]

/-- At a stop a sprite is told of if it speaks. -/
theorem about_hushAll (w : World) (id : SpriteId) :
    about id w.hushAll.2
      = if (w.cast.look? id).any (·.2.2.message.isSome) then w.hushAll.1.notice id [.message]
        else [] := by
  have hone : w.speakers.filter (·.id = id)
      = (w.cast.find? id).toList.filter (·.figure.bubble.isSome) := by
    rw [speakers, List.filter_comm, Member.filter_id id w.cast.sorted]
    rfl
  refine (about_notices w.hushAll.1 [.message] id w.speakers).trans ?_
  rw [hone, Cast.look?]
  rcases hm : w.cast.find? id with _ | m
  · rfl
  · rcases hb : m.figure.bubble with _ | b <;>
      simp [hb, Member.look, Figure.snapshot, Cast.id_of_find? hm]

/-- A stop ends the message of a sprite. -/
theorem matches_stop (hk : w.Kept [] clock table) (hk' : v.Kept [] clock' table')
    (hs : w.sight id = v.sight id) : Matches id w.stop v.stop := by
  have hl := (sight_eq_iff.1 hs).1
  have hl' : w.stop.1.cast.look? id = v.stop.1.cast.look? id := Cast.look?_hush hl
  refine ⟨sight_eq_iff.2 ⟨hl', ?_⟩, ?_⟩
  · exact endsAt_eq (kept_hushAll (w := { v with runs := v.runs.stop }) hk')
      (kept_hushAll (w := { w with runs := w.runs.stop }) hk) hl' rfl
  · have hn : w.stop.1.notice id [.message] = v.stop.1.notice id [.message] := notice_congr hl' _
    rw [stop, stop] at hn ⊢
    rw [about_hushAll, about_hushAll, hn]
    simp only [hl]

theorem matches_unregister (hk : w.Kept [] clock table) (hk' : v.Kept [] clock' table')
    (hs : w.sight id = v.sight id) :
    Matches id ((w.unregister id).1, (w.unregister id).2.1)
      ((v.unregister id).1, (v.unregister id).2.1) := by
  have hl : (w.unregister id).1.cast.look? id = (v.unregister id).1.cast.look? id := by
    rw [unregister_cast, unregister_cast, Cast.look?_remove, Cast.look?_remove]
  refine ⟨sight_eq_iff.2 ⟨hl, endsAt_eq (kept_unregister hk' id) (kept_unregister hk id) hl ?_⟩, ?_⟩
  · exact (if_pos rfl).trans (if_pos rfl).symm
  · unfold unregister
    rcases Cast.look?_cases (sight_eq_iff.1 hs).1 with ⟨hm, hn⟩ | ⟨m, n, hm, hn, hlook⟩
    · rw [hm, hn]
    · simp only [Member.look, Prod.mk.injEq] at hlook
      simp only [hm, hn, hlook.1]

/-- A call about a sprite, or a stop, makes the same of the same sight. -/
theorem matches_reply (hk : w.Kept [] clock table) (hk' : v.Kept [] clock' table')
    (hs : w.sight id = v.sight id) {c : Call} (hc : c.subject? = some id ∨ c = .stop) :
    Matches id ((w.reply settings now c).world, (w.reply settings now c).notices)
      ((v.reply settings now c).world, (v.reply settings now c).notices) := by
  obtain ⟨hl, he⟩ := sight_eq_iff.1 hs
  rcases hc with hc | rfl
  · cases c with
    | register i position script target =>
      cases hc
      have hl := Cast.look?_register hl target position script
      exact ⟨sight_eq_iff.2 ⟨hl, he⟩, congrArg (about id) (notice_congr hl _)⟩
    | unregister i =>
      cases hc
      exact matches_unregister hk hk' hs
    | setPosition i position =>
      cases hc
      have hl := Cast.look?_update hl fun _ _ hs => Figure.snapshot_moved hs position
      exact ⟨sight_eq_iff.2 ⟨hl, he⟩, congrArg (about id) (notice_congr hl _)⟩
    | setScript i script =>
      cases hc
      exact ⟨sight_eq_iff.2 ⟨Cast.look?_setScript hl script, he⟩, rfl⟩
    | refresh i =>
      cases hc
      exact ⟨hs, congrArg (about id) (notice_congr hl _)⟩
    | queueCheck i =>
      simp only [reply]
      split <;> split <;> exact ⟨hs, rfl⟩
    | _ => cases hc
  · exact matches_stop hk hk' hs

end World

end SpriteCanvas
