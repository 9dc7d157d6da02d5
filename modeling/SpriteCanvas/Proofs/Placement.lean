import SpriteCanvas.Proofs.Bounds
import SpriteCanvas.Proofs.Undelivered

/-!
# Everybody in place

Every deed leaves all figures on the canvas with their headings within one turn, and so is what the
host is told of them (`World.allPlaced_perform`).  What a host calls with is made by clamping, so
this holds of every state that any moves come to, of every update that is delivered and of every
snapshot that is read from a text (`Course.placed_throughout`).
-/

namespace SpriteCanvas

/-! ## Worlds and notices -/

theorem Figure.Placed.struck {f g : Figure} (h : f.Placed) (hs : f.Struck g) : g.Placed := by
  unfold Struck at hs
  exact h.of_eq (by rw [hs]) (by rw [hs])

/-- Every registered sprite is in place. -/
def Cast.Placed (c : Cast) : Prop := ∀ id m, c.find? id = some m → m.figure.Placed

/-- A notice shows a sprite that is in place. -/
def Notice.Placed : Notice → Prop
  | .update u => u.snapshot.Placed
  | .removed _ _ => True

/-- What a call says of a position, it says of one on the canvas: every position that a host has
was made by clamping. -/
def Call.WellPlaced : Call → Prop
  | .register _ position _ _ | .setPosition _ position => ∃ x y, position = .clamped x y
  | _ => True

namespace Cast

variable {c c' : Cast} {id : SpriteId} {R : Figure → Figure → Prop}

theorem Placed.redraws (h : c.Placed) (hr : c.Redraws R c')
    (hR : ∀ f g, R f g → f.Placed → g.Placed) : c'.Placed := by
  intro i m' hm'
  have hi := hr.isSome_find?_eq i
  rw [hm', Option.isSome_some] at hi
  obtain ⟨m, hm⟩ := Option.isSome_iff_exists.1 hi.symm
  obtain ⟨g, hg, hm''⟩ := hr.find?_some hm
  cases hm'.symm.trans hm''
  exact hR _ _ hg (h i m hm)

theorem Placed.update (h : c.Placed) {f : Figure → Figure} (hf : ∀ g, g.Placed → (f g).Placed) :
    (c.update id f).Placed :=
  h.redraws (redraws_update (R := fun g g' => g.Placed → g'.Placed) f (fun _ h => h) hf)
    fun _ _ h => h

theorem Placed.register (h : c.Placed) {position : Point} (hp : position.OnCanvas)
    (target : String) (script : Script) : (c.register id target position script).2.Placed := by
  intro i m hm
  by_cases hi : i = id
  · subst hi
    rcases hc : c.find? i with _ | m'
    · rw [find?_register_of_none hc] at hm
      cases hm
      exact Figure.placed_new hp
    · rw [find?_register_of_some hc] at hm
      cases hm
      exact ⟨hp, (h i m' hc).heading⟩
  · rw [find?_register_of_ne hi] at hm
    exact h i m hm

theorem Placed.setScript (h : c.Placed) (script : Script) : (c.setScript id script).2.Placed := by
  intro i m hm
  by_cases hi : i = id
  · subst hi
    rw [find?_setScript_self] at hm
    obtain ⟨m', hm', rfl⟩ := Option.map_eq_some_iff.1 hm
    exact ⟨(h i m' hm').position, (h i m' hm').heading⟩
  · rw [find?_setScript_of_ne hi] at hm
    exact h i m hm

theorem Placed.remove (h : c.Placed) (i : SpriteId) : (c.remove i).Placed := by
  intro j m hm
  rw [find?_remove] at hm
  split at hm
  · cases hm
  · exact h j m hm

end Cast

namespace World

variable {settings : Settings} {now : Nat} {w : World} {id : SpriteId} {n : Notice}

/-- A world and notices in which every sprite is in place. -/
def AllPlaced (r : World × List Notice) : Prop := r.1.cast.Placed ∧ ∀ n ∈ r.2, n.Placed

theorem placed_of_mem_notice (h : w.cast.Placed) {changes : List Change}
    (hn : n ∈ w.notice id changes) : n.Placed := by
  unfold notice at hn
  split at hn
  · rename_i m hm
    obtain rfl := List.mem_singleton.1 hn
    exact (h id m hm).snapshot
  · cases hn

/-- Who is in place stays there when it is told once. -/
theorem allPlaced_notice (h : w.cast.Placed) (changes : List Change) :
    AllPlaced (w, w.notice id changes) :=
  ⟨h, fun _ hn => placed_of_mem_notice h hn⟩

theorem allPlaced_strike (h : w.cast.Placed) : AllPlaced (w.strike settings now id) := by
  have hw : (w.strike settings now id).1.cast.Placed :=
    h.redraws (strike_redraws settings now w id) fun _ _ hs hf => hf.struck hs
  refine ⟨hw, fun n hn => ?_⟩
  revert hw hn
  unfold strike
  split
  · intro _ hn
    cases hn
  · intro hw hn
    exact placed_of_mem_notice hw hn

theorem allPlaced_strikeAll : ∀ (ids : List SpriteId) {w : World}, w.cast.Placed →
    AllPlaced (strikeAll settings now ids w)
  | [], _, h => ⟨h, nofun⟩
  | id :: ids, w, h => by
    have hfirst : AllPlaced (w.strike settings now id) := allPlaced_strike h
    have hrest := allPlaced_strikeAll ids hfirst.1
    exact ⟨hrest.1, fun n hn => (List.mem_append.1 hn).elim (hfirst.2 n) (hrest.2 n)⟩

theorem placed_apply (h : w.cast.Placed) (m : Member) (c : Command) :
    (w.apply settings now m c).cast.Placed := by
  cases c with
  | move steps =>
    have hw : (w.cast.update m.id (·.walk steps)).Placed := h.update fun _ hg => hg.walk steps
    simp only [apply]
    split <;> exact hw
  | turn degrees => exact h.update fun _ hg => hg.turn degrees
  | goTo x y => exact h.update fun _ hg => hg.goTo x y
  | say text secs => exact h.update fun g hg => hg.of_eq rfl rfl
  | think text secs => exact h.update fun g hg => hg.of_eq rfl rfl
  | loop times => exact h
  | unknown name value => exact h

theorem allPlaced_execute (h : w.cast.Placed) (m : Member) (c : Command) :
    AllPlaced (w.execute settings now m c) := by
  have ha : (w.apply settings now m c).cast.Placed := placed_apply h m c
  unfold execute
  dsimp only
  split
  · have hs : AllPlaced (strikePairs settings now
        ((w.apply settings now m c).touchingPairs settings) (w.apply settings now m c)) :=
      allPlaced_strikeAll _ ha
    exact ⟨hs.1, fun n hn => (List.mem_append.1 hn).elim (placed_of_mem_notice ha) (hs.2 n)⟩
  · exact allPlaced_notice ha _

theorem allPlaced_hushAll (h : w.cast.Placed) : AllPlaced w.hushAll := by
  have hw : w.hushAll.1.cast.Placed :=
    h.redraws (Cast.redraws_mapFigures (R := fun f g => f.Placed → g.Placed)
      fun m hf => hf.of_eq rfl rfl) fun _ _ h => h
  refine ⟨hw, fun n hn => ?_⟩
  obtain ⟨m, -, hn⟩ := List.mem_flatMap.1 hn
  exact placed_of_mem_notice hw hn

theorem allPlaced_ring (h : w.cast.Placed) (alarm : AlarmId) (expiry : Expiry) :
    AllPlaced (w.ring alarm expiry) := by
  have hsame : AllPlaced (w, []) := ⟨h, nofun⟩
  unfold ring
  split
  · exact hsame
  · cases expiry with
    | message i =>
      dsimp only
      split
      · have hw : (w.updateFigure i (·.hush)).cast.Placed := h.update fun g hg => hg.of_eq rfl rfl
        exact allPlaced_notice hw _
      · exact hsame
    | highlight i =>
      dsimp only
      split
      · have hw : (w.updateFigure i (·.dim)).cast.Placed := h.update fun g hg => hg.of_eq rfl rfl
        exact allPlaced_notice hw _
      · exact hsame

theorem allPlaced_unregister (h : w.cast.Placed) (i : SpriteId) :
    AllPlaced ((w.unregister i).1, (w.unregister i).2.1) := by
  refine ⟨?_, fun n hn => ?_⟩
  · rw [unregister_cast]
    exact h.remove i
  · unfold unregister at hn
    dsimp only at hn
    split at hn
    · cases hn
    · obtain rfl := List.mem_singleton.1 hn
      trivial

theorem allPlaced_reply (h : w.cast.Placed) {c : Call} (hc : c.WellPlaced) :
    AllPlaced ((w.reply settings now c).world, (w.reply settings now c).notices) := by
  have hsame : AllPlaced (w, []) := ⟨h, nofun⟩
  cases c with
  | register i position script target =>
    obtain ⟨x, y, rfl⟩ := hc
    have hw : (w.cast.register i target (.clamped x y) script).2.Placed :=
      h.register (Point.onCanvas_clamped x y) target script
    exact allPlaced_notice (w := { w with cast := _ }) hw _
  | unregister i => exact allPlaced_unregister h i
  | setPosition i position =>
    obtain ⟨x, y, rfl⟩ := hc
    have hw : (w.updateFigure i fun f => { f with position := .clamped x y }).cast.Placed :=
      h.update fun g hg => ⟨Point.onCanvas_clamped x y, hg.heading⟩
    exact allPlaced_notice hw _
  | setScript i script => exact ⟨h.setScript script, nofun⟩
  | refresh i => exact allPlaced_notice h _
  | queueCheck i =>
    unfold reply
    dsimp only
    split <;> exact hsame
  | checkAll => exact allPlaced_strikeAll _ h
  | drainChecks => exact allPlaced_strikeAll (w := { w with checks := .empty }) _ h
  | stop => exact allPlaced_hushAll (w := { w with runs := w.runs.stop }) h
  | _ => exact hsame

/-- A deed leaves every sprite in place, and tells so. -/
theorem allPlaced_perform (h : w.cast.Placed) {d : Deed}
    (hd : ∀ c, d = .answer c → c.WellPlaced) : AllPlaced (w.perform settings now d) := by
  have hsame : AllPlaced (w, []) := ⟨h, List.forall_mem_nil _⟩
  cases d with
  | answer c => exact allPlaced_reply h (hd c rfl)
  | begin run =>
    simp only [perform]
    split <;> exact hsame
  | execute r b =>
    simp only [perform]
    split
    · exact allPlaced_execute h _ _
    · exact hsame
  | mark r looping =>
    refine ⟨h.redraws (R := fun f g => f.Placed → g.Placed) ?_ fun _ _ h => h,
      List.forall_mem_nil _⟩
    simp only [perform, setLooping, Cast.updateCurrent]
    split
    · exact Cast.redraws_update _ (fun _ h => h) fun g hg => hg.of_eq rfl rfl
    · exact .refl (fun _ h => h) _
  | drain r => exact allPlaced_strikeAll (w := { w with checks := .empty }) _ h
  | ring alarm expiry => exact allPlaced_ring h alarm expiry
  | _ => exact hsame

end World

/-! ## Who calls -/

namespace Audience

/-- A host reacts with what waits, and nothing new comes to wait. -/
theorem hear_keeps {P : Call → Prop} {a : Audience} (h : ∀ r ∈ a.waiting, P r.call) (now : Nat)
    (n : Notice) :
    (∀ c ∈ (a.hear now n).1, P c) ∧ ∀ r ∈ (a.hear now n).2.waiting, P r.call := by
  have hquiet : ∀ b : Audience, b.waiting = a.waiting →
      (∀ c ∈ ([] : List Call), P c) ∧ ∀ r ∈ b.waiting, P r.call :=
    fun b hb => ⟨List.forall_mem_nil P, hb ▸ h⟩
  cases n with
  | update u =>
    simp only [hear]
    split
    · exact hquiet a rfl
    · refine ⟨fun c hc => ?_, fun r hr => ?_⟩
      · obtain ⟨r, hr, rfl⟩ := List.mem_map.1 hc
        exact h r (List.mem_of_mem_filter hr)
      · obtain ⟨r', hr', rfl⟩ := List.mem_map.1 hr
        have hr' := h r' (List.mem_of_mem_filter hr')
        split <;> exact hr'
  | removed id target =>
    simp only [hear]
    split
    · exact hquiet _ rfl
    · exact hquiet a rfl

end Audience

namespace Scene

variable (settings : Settings) (now : Nat) {P : Call → Prop} {s : Scene}

/-- While errands are run, only their own calls and those that wait are answered. -/
theorem runLog_keeps (errands : List Errand) (he : ∀ c, .call c ∈ errands → P c)
    (hs : ∀ r ∈ s.audience.waiting, P r.call) :
    (∀ t c, ⟨t, .answer c⟩ ∈ s.runLog settings now errands → P c)
      ∧ ∀ r ∈ (s.run settings now errands).audience.waiting, P r.call := by
  fun_induction runLog settings now errands s with
  | case1 s =>
    rw [run]
    exact ⟨fun _ _ hc => absurd hc List.not_mem_nil, hs⟩
  | case2 n errands s ih =>
    obtain ⟨hcalls, hwait⟩ := Audience.hear_keeps hs now n
    obtain ⟨hlog, hafter⟩ := ih (fun c hc => by
      rcases List.mem_append.1 hc with hc | hc
      · obtain ⟨c', hc', hcc⟩ := List.mem_map.1 hc
        cases hcc
        exact hcalls c hc'
      · exact he c (List.mem_cons_of_mem _ hc)) hwait
    rw [run]
    refine ⟨fun t c hc => ?_, hafter⟩
    rcases List.mem_cons.1 hc with hc | hc
    · cases hc
    · exact hlog t c hc
  | case3 c errands s reply =>
    rename_i ih
    obtain ⟨hlog, hafter⟩ := ih (fun c' hc => by
      rcases List.mem_append.1 hc with hc | hc
      · obtain ⟨_, -, hcc⟩ := List.mem_map.1 hc
        cases hcc
      · rcases List.mem_cons.1 hc with hc | hc
        · cases hc
        · exact he c' (List.mem_cons_of_mem _ hc)) hs
    rw [run]
    refine ⟨fun t c' hc => ?_, hafter⟩
    rcases List.mem_cons.1 hc with hc | hc
    · cases hc
      exact he c List.mem_cons_self
    · exact hlog t c' hc
  | case4 a errands s ih =>
    rw [run]
    exact ih (fun c hc => he c (List.mem_cons_of_mem _ hc)) hs

theorem log_keeps (ds : List Deed) (hd : ∀ c, .answer c ∈ ds → P c)
    (hs : ∀ r ∈ s.audience.waiting, P r.call) :
    (∀ t c, ⟨t, .answer c⟩ ∈ s.log settings now ds → P c)
      ∧ ∀ r ∈ (s.performAll settings now ds).audience.waiting, P r.call := by
  induction ds generalizing s with
  | nil => exact ⟨fun _ _ hc => absurd hc List.not_mem_nil, hs⟩
  | cons d ds ih =>
    obtain ⟨hfirst, hwait⟩ := runLog_keeps settings now
      (s := { s with world := (s.world.perform settings now d).1 })
      ((s.world.perform settings now d).2.map .tell) (fun c hc => by
        obtain ⟨_, -, hcc⟩ := List.mem_map.1 hc
        cases hcc) hs
    obtain ⟨hrest, hafter⟩ := ih (fun c hc => hd c (List.mem_cons_of_mem d hc)) hwait
    refine ⟨fun t c hc => ?_, hafter⟩
    rw [log, List.cons_append] at hc
    rcases List.mem_cons.1 hc with hc | hc
    · obtain ⟨-, rfl⟩ := Entry.mk.inj hc
      exact hd c List.mem_cons_self
    · exact (List.mem_append.1 hc).elim (hfirst t c) (hrest t c)

end Scene

namespace Course

variable (settings : Settings) {P : Call → Prop}

/-- Every call that is answered was made by a move or was a reaction. -/
theorem answers_run (listening : Listening) {reactions : List Reaction} {ms : List Move}
    (hms : ∀ c, .call c ∈ ms → P c) (hr : ∀ r ∈ reactions, P r.call) :
    ∀ t c, ⟨t, .answer c⟩ ∈ ((start listening reactions).run settings ms).chronicle → P c := by
  suffices H : ∀ (ms : List Move) (x : Course), (∀ c, .call c ∈ ms → P c) →
      (∀ t c, ⟨t, .answer c⟩ ∈ x.chronicle → P c) →
      (∀ r ∈ x.engine.scene.audience.waiting, P r.call) →
      ∀ t c, ⟨t, .answer c⟩ ∈ (x.run settings ms).chronicle → P c from by
    refine H ms _ hms (fun _ _ hc => absurd hc List.not_mem_nil) fun r hw => ?_
    simp only [start, Audience.new] at hw
    split at hw
    · exact hr r hw
    · cases hw
  intro ms
  induction ms with
  | nil => exact fun x _ hx _ => hx
  | cons m ms ih =>
    intro x hms hx hw
    obtain ⟨hlog, hafter⟩ := Scene.log_keeps settings x.clock
      (x.deeds settings m) (fun c hc => hms c (eq_call_of_mem_deeds hc ▸ List.mem_cons_self)) hw
    refine ih (x.move settings m) (fun c hc => hms c (List.mem_cons_of_mem m hc)) (fun t c hc => ?_)
      ?_
    · exact (List.mem_append.1 hc).elim (hx t c) (hlog t c)
    · rw [move_scene]
      exact hafter

end Course

/-! ## Courses -/

namespace Moment

variable {settings : Settings} {n : Moment} {ns : List Notice} {log : List Entry}

/-- What is told waited, so it shows who was in place. -/
theorem placed_after (hw : n.world.cast.Placed) (hns : ∀ notice ∈ ns, notice.Placed)
    (ho : n.Orderly settings ns log) (hcalls : ∀ t c, ⟨t, .answer c⟩ ∈ log → c.WellPlaced) :
    (n.after settings log).world.cast.Placed ∧ ∀ notice ∈ told log, notice.Placed := by
  induction log generalizing n ns with
  | nil => exact ⟨hw, nofun⟩
  | cons e log ih =>
    have hperform : World.AllPlaced (n.world.perform settings e.time e.deed) :=
      World.allPlaced_perform hw fun c hc => hcalls e.time c (hc ▸ List.mem_cons_self)
    have hcalls' : ∀ t c, ⟨t, .answer c⟩ ∈ log → c.WellPlaced := fun t c hc =>
      hcalls t c (List.mem_cons_of_mem e hc)
    rcases hn : e.notice? with _ | notice
    · have hrest := ih hperform.1 (fun m hm => ?_) ho.2 hcalls'
      · rw [told, List.filterMap_cons_none hn]
        exact hrest
      · rw [waitingAfter_of_none hn] at hm
        exact (List.mem_append.1 hm).elim (hperform.2 m) (hns m)
    · obtain ⟨tl, rfl⟩ := List.head?_eq_some_iff.1 (ho.1.1 notice hn)
      have hrest := ih hperform.1 (fun m hm => ?_) ho.2 hcalls'
      · rw [told, List.filterMap_cons_some hn]
        exact ⟨hrest.1, List.forall_mem_cons.2 ⟨hns notice List.mem_cons_self, hrest.2⟩⟩
      · rw [waitingAfter_of_some hn] at hm
        exact hns m (List.mem_of_mem_tail hm)

end Moment

namespace Course

/-- Whatever doubles a host calls with, at every moment of the chronicle and in the state that it
comes to every sprite has both coordinates from 0 to 100 and a heading from 0 to below 360, and so
has every snapshot that the host is told of; and so has every snapshot that is read from a text. -/
theorem placed_throughout (settings : Settings) (listening : Listening)
    (reactions : List Reaction) (ms : List Move)
    (hms : ∀ c, .call c ∈ ms → c.WellPlaced) (hr : ∀ r ∈ reactions, r.call.WellPlaced) :
    (∀ pre post, ((start listening reactions).run settings ms).chronicle = pre ++ post →
        (Moment.start.after settings pre).world.cast.Placed)
      ∧ ((start listening reactions).run settings ms).engine.world.cast.Placed
      ∧ (∀ t u, ⟨t, .tell (.update u)⟩
          ∈ ((start listening reactions).run settings ms).chronicle → u.snapshot.Placed)
      ∧ ∀ depth text s, Json.readWhole (Snapshot.read depth) text = .ok s → s.Placed := by
  have hcalls := answers_run settings listening hms hr
  have ho := (delivers_run settings listening reactions ms).orderly
  have hstart : Moment.start.world.cast.Placed := nofun
  have hall := Moment.placed_after hstart (List.forall_mem_nil Notice.Placed) ho hcalls
  refine ⟨fun pre post hc => ?_, ?_, fun t u hu => ?_,
    fun depth text s => Snapshot.placed_of_readWhole⟩
  · rw [hc] at ho hcalls
    exact (Moment.placed_after hstart (List.forall_mem_nil Notice.Placed)
      ((Moment.orderly_append settings _ _ _ _).1 ho).1
      fun t c h => hcalls t c (List.mem_append_left post h)).1
  · rw [← (agrees_run settings listening reactions ms).world]
    exact hall.1
  · exact hall.2 (.update u) (List.mem_filterMap.2 ⟨_, hu, rfl⟩)

/-- A sprite that is registered at no number and at infinity is on the canvas. -/
theorem placed_beyond_corner : ∃ m,
    ((start .recording []).run .default
        [.call (.register "a" (.clamped (0 / 0) (1 / 0)) [] "t")]).engine.world.cast.find? "a"
      = some m ∧ m.figure.Placed := by
  have hworld := (Scene.perform_quiet .default 0 (s := (start .recording []).engine.scene) rfl
    (.answer (.register "a" (.clamped (0 / 0) (1 / 0)) [] "t"))).1
  have hempty : Cast.empty.find? "a" = none := rfl
  have hfind := (congrArg (fun w : World => w.cast.find? "a") hworld).trans
    (Cast.find?_register_of_none hempty "t" (.clamped (0 / 0) (1 / 0)) [])
  refine ⟨_, hfind, (placed_throughout .default .recording []
    [.call (.register "a" (.clamped (0 / 0) (1 / 0)) [] "t")] (fun c hc => ?_)
    fun r hr => ?_).2.1 "a" _ hfind⟩
  · cases List.mem_singleton.1 hc
    exact ⟨_, _, rfl⟩
  · cases hr

end Course

end SpriteCanvas
