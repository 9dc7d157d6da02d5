import SpriteCanvas.Proofs.Course
import SpriteCanvas.Proofs.Mirror
import SpriteCanvas.Proofs.Quiet

/-!
# What a quiet host hears

A notice goes to where its sprite is shown at that time (`World.perform_addresses`).  So a host
that never calls back hears of every sprite at the target of its latest registration, and its
mirror shows what the world is like, after any moves (`Course.mirror_run`).  What a chronicle tells
is what a recording host has recorded (`Course.heard_run`).
-/

namespace SpriteCanvas

namespace Notice

/-- The sprite that a notice is about. -/
def id : Notice → SpriteId
  | update u => u.id
  | removed id _ => id

/-- Where a notice is sent. -/
def target : Notice → String
  | update u => u.target
  | removed _ target => target

end Notice

/-- Where the sprite of a name is shown. -/
def Cast.target? (c : Cast) (id : SpriteId) : Option String := (c.find? id).map (·.target)

theorem Cast.target?_eq (c : Cast) (id : SpriteId) : c.target? id = (c.part? id).map (·.1) := by
  simp only [target?, part?, Option.map_map]
  rfl

theorem Cast.Redrawn.target?_eq {c c' : Cast} (h : c.Redrawn c') (id : SpriteId) :
    c'.target? id = c.target? id := by
  rw [Cast.target?_eq, Cast.target?_eq, Cast.Redraws.part?_eq h]

theorem Cast.target?_register (c : Cast) (id : SpriteId) (target : String) (position : Point)
    (script : Script) : (c.register id target position script).2.target? id = some target := by
  unfold target?
  rcases h : c.find? id with _ | m
  · rw [find?_register_of_none h]
    rfl
  · rw [find?_register_of_some h]
    rfl

/-- The target that a deed gives a sprite. -/
def Deed.target? (id : SpriteId) : Deed → Option String
  | .answer (.register i _ _ target) => if i = id then some target else none
  | _ => none

theorem Deed.target?_eq_none {d : Deed} {id : SpriteId} (h : d.recast? ≠ some id) :
    d.target? id = none := by
  cases d with
  | answer c =>
    cases c with
    | register i position script target => exact if_neg fun hi => h (congrArg some hi)
    | _ => rfl
  | _ => rfl

/-- The target of the latest registration of a sprite. -/
def latestTarget (id : SpriteId) (log : List Entry) : Option String :=
  log.foldl (fun target e => (e.deed.target? id).or target) none

theorem latestTarget_concat (id : SpriteId) (log : List Entry) (e : Entry) :
    latestTarget id (log ++ [e]) = (e.deed.target? id).or (latestTarget id log) := by
  simp [latestTarget]

namespace World

/-- Every notice goes to where its sprite is shown. -/
def Addresses (c : Cast) (ns : List Notice) : Prop :=
  ∀ n ∈ ns, c.target? n.id = some n.target

variable {c c' : Cast} {ns ns' : List Notice} {w : World}

theorem addresses_nil (c : Cast) : Addresses c [] := nofun

theorem Addresses.append (h : Addresses c ns) (h' : Addresses c ns') : Addresses c (ns ++ ns') :=
  fun n hn => (List.mem_append.1 hn).elim (h n) (h' n)

theorem Addresses.redrawn (h : Addresses c' ns) (hc : c.Redrawn c') : Addresses c ns :=
  fun n hn => (hc.target?_eq n.id).symm.trans (h n hn)

theorem id_of_mem_notice {id : SpriteId} {changes : List Change} {n : Notice}
    (h : n ∈ w.notice id changes) : n.id = id := by
  unfold notice at h
  split at h
  · obtain rfl := List.mem_singleton.1 h
    rfl
  · cases h

/-- A notice of a redrawn sprite goes to where it was shown before. -/
theorem addresses_notice {w' : World} (hw : w.cast.Redrawn w'.cast) (id : SpriteId)
    (changes : List Change) : Addresses w.cast (w'.notice id changes) := by
  intro n hn
  unfold notice at hn
  split at hn
  · rename_i m hm
    obtain rfl := List.mem_singleton.1 hn
    exact (hw.target?_eq id).symm.trans (congrArg _ hm)
  · cases hn

variable (settings : Settings) (now : Nat)

theorem addresses_strike (w : World) (id : SpriteId) :
    Addresses w.cast (w.strike settings now id).2 := by
  unfold strike
  split
  · exact addresses_nil _
  · exact addresses_notice (Cast.redrawn_update id (·.strike w.alarms.next)) id _

theorem addresses_strikeAll : ∀ (ids : List SpriteId) (w : World),
    Addresses w.cast (strikeAll settings now ids w).2
  | [], w => addresses_nil w.cast
  | id :: ids, w => (addresses_strike settings now w id).append
      ((addresses_strikeAll ids _).redrawn (strike_redraws settings now w id).redrawn)

theorem addresses_execute (w : World) (m : Member) (c : Command) :
    Addresses w.cast (w.execute settings now m c).2 := by
  have hr := (apply_redraws settings now w m c).redrawn
  have hown := addresses_notice hr m.id (changesOf c)
  unfold execute
  dsimp only
  split
  · exact hown.append ((addresses_strikeAll settings now _ _).redrawn hr)
  · exact hown

theorem addresses_hushAll (w : World) : Addresses w.cast w.hushAll.2 := by
  intro n hn
  obtain ⟨m, -, hn⟩ := List.mem_flatMap.1 hn
  have hw : w.cast.Redrawn w.hushAll.1.cast := Cast.redrawn_mapFigures (·.figure.hush)
  exact addresses_notice hw m.id
    [.message] n hn

theorem addresses_ring (w : World) (alarm : AlarmId) (expiry : Expiry) :
    Addresses w.cast (w.ring alarm expiry).2 := by
  unfold ring
  split
  · exact addresses_nil _
  · cases expiry with
    | message id =>
      dsimp only
      split
      · exact addresses_notice (Cast.redrawn_update id (·.hush)) id _
      · exact addresses_nil _
    | highlight id =>
      dsimp only
      split
      · exact addresses_notice (Cast.redrawn_update id (·.dim)) id _
      · exact addresses_nil _

theorem addresses_unregister (w : World) (id : SpriteId) :
    Addresses w.cast (w.unregister id).2.1 := by
  unfold unregister
  dsimp only
  split
  · exact addresses_nil _
  · rename_i m hm
    intro n hn
    obtain rfl := List.mem_singleton.1 hn
    exact congrArg _ hm

theorem addresses_reply (w : World) {c : Call}
    (hc : ∀ id position script target, c ≠ .register id position script target) :
    Addresses w.cast (w.reply settings now c).notices := by
  cases c with
  | register id position script target => exact absurd rfl (hc id position script target)
  | unregister id => exact addresses_unregister w id
  | setPosition id position =>
    exact addresses_notice (Cast.redrawn_update id fun f => { f with position := position }) id _
  | refresh id => exact addresses_notice .rfl id _
  | queueCheck id =>
    simp only [reply]
    split <;> exact addresses_nil _
  | checkAll => exact addresses_strikeAll settings now _ w
  | drainChecks => exact addresses_strikeAll settings now _ { w with checks := .empty }
  | stop => exact addresses_hushAll { w with runs := w.runs.stop }
  | _ => exact addresses_nil _

/-- A notice goes to where its sprite is registered now, or was shown before. -/
theorem perform_addresses (w : World) {d : Deed} {n : Notice}
    (hn : n ∈ (w.perform settings now d).2) :
    (d.target? n.id).or (w.cast.target? n.id) = some n.target := by
  have hold : Addresses w.cast (w.perform settings now d).2 → d.target? n.id = none →
      (d.target? n.id).or (w.cast.target? n.id) = some n.target := by
    intro h hd
    rw [hd, Option.none_or]
    exact h n hn
  cases d with
  | answer c =>
    cases c with
    | register id position script target =>
      have hid : n.id = id := id_of_mem_notice hn
      have hself := addresses_notice (w := (w.reply settings now
        (.register id position script target)).world) .rfl id [.registered, .position] n hn
      rw [reply, hid, Cast.target?_register] at hself
      rw [hid, Deed.target?, if_pos rfl, hself]
      rfl
    | _ => exact hold (addresses_reply settings now w (by simp)) rfl
  | begin run =>
    refine hold ?_ rfl
    simp only [perform]
    split <;> exact addresses_nil _
  | execute r b =>
    refine hold ?_ rfl
    simp only [perform]
    split
    · exact addresses_execute settings now w _ _
    · exact addresses_nil _
  | drain r => exact hold (addresses_strikeAll settings now _ { w with checks := .empty }) rfl
  | ring alarm expiry => exact hold (addresses_ring w alarm expiry) rfl
  | _ => cases hn

/-- A sprite is shown where it is registered now, or was shown before. -/
theorem target?_perform (w : World) {d : Deed} {id : SpriteId} {target : String}
    (h : (w.perform settings now d).1.cast.target? id = some target) :
    (d.target? id).or (w.cast.target? id) = some target := by
  by_cases hr : d.recast? = some id
  · cases d with
    | answer c =>
      cases c with
      | register i position script target' =>
        cases hr
        rw [perform, reply, Cast.target?_register] at h
        rw [Deed.target?, if_pos rfl, h]
        rfl
      | unregister i =>
        cases hr
        rw [perform, reply, Cast.target?, unregister_cast, Cast.find?_remove, if_pos rfl] at h
        cases h
      | setScript i script =>
        cases hr
        rw [perform, reply, Cast.target?, Cast.find?_setScript_self, Option.map_map] at h
        exact h
      | _ => cases hr
    | _ => cases hr
  · rw [Cast.target?_eq, part?_perform settings now w hr, ← Cast.target?_eq] at h
    rw [Deed.target?_eq_none hr, Option.none_or, h]

/-- Nobody gets a name but by a registration. -/
theorem find?_perform_of_none {w : World} {d : Deed} {id : SpriteId}
    (h : w.cast.find? id = none) (hd : d.target? id = none) :
    (w.perform settings now d).1.cast.find? id = none := by
  rcases ht : (w.perform settings now d).1.cast.target? id with _ | target
  · exact Option.map_eq_none_iff.1 ht
  · have htarget := target?_perform settings now w ht
    rw [hd, Cast.target?, h] at htarget
    cases htarget

end World

/-- The notice that an entry tells of. -/
def Entry.notice? (e : Entry) : Option Notice :=
  match e.deed with
  | .tell n => some n
  | _ => none

/-- All that the host has heard. -/
def told (log : List Entry) : List Notice := log.filterMap Entry.notice?

theorem told_append (log log' : List Entry) : told (log ++ log') = told log ++ told log' :=
  List.filterMap_append

/-- Doing a deed tells of nothing by itself. -/
theorem told_deed {d : Deed} (hd : ∀ n, d ≠ .tell n) (now : Nat) (log : List Entry) :
    told (⟨now, d⟩ :: log) = told log := by
  cases d with
  | tell n => exact absurd rfl (hd n)
  | _ => rfl

/-! ## What is recorded -/

/-- The notice that an event records. -/
def Event.notice? : Event → Option Notice
  | .update u _ => some (.update u)
  | .removed id target => some (.removed id target)
  | .reaction _ => none

namespace Audience

/-- The notices that a host has recorded, in the order in which they came. -/
def heard (a : Audience) : List Notice := a.recorded.reverse.filterMap Event.notice?

variable {a : Audience} (now : Nat)

theorem heard_hear (h : a.listening = .recording) (n : Notice) :
    (a.hear now n).2.listening = .recording ∧ (a.hear now n).2.heard = a.heard ++ [n] := by
  cases n <;> simp [hear, heard, record, Event.notice?, h]

theorem heard_report (a : Audience) (answer : Answer) :
    (a.record (.reaction answer)).heard = a.heard := by
  simp [heard, record, Event.notice?]

end Audience

namespace Scene

variable (settings : Settings) (now : Nat) {s : Scene}

/-- What is delivered to a recording host is recorded, also what its own calls bring about. -/
theorem heard_run (errands : List Errand) (h : s.audience.listening = .recording) :
    (s.run settings now errands).audience.listening = .recording
      ∧ (s.run settings now errands).audience.heard
        = s.audience.heard ++ told (s.runLog settings now errands) := by
  fun_induction runLog settings now errands s with
  | case1 s =>
    rw [run]
    exact ⟨h, (List.append_nil _).symm⟩
  | case2 n errands s ih =>
    obtain ⟨hl, hn⟩ := Audience.heard_hear now h n
    obtain ⟨hl', hrest⟩ := ih hl
    rw [run]
    refine ⟨hl', hrest.trans ?_⟩
    rw [hn, List.append_assoc]
    rfl
  | case3 c errands s reply ih =>
    rw [run]
    exact ih h
  | case4 answer errands s ih =>
    rw [run, ← Audience.heard_report s.audience answer]
    exact ih h

theorem heard_performAll : ∀ (ds : List Deed) {s : Scene}, (∀ d ∈ ds, ∀ n, d ≠ .tell n) →
    s.audience.listening = .recording →
    (s.performAll settings now ds).audience.listening = .recording
      ∧ (s.performAll settings now ds).audience.heard
        = s.audience.heard ++ told (s.log settings now ds)
  | [], s, _, h => ⟨h, (List.append_nil _).symm⟩
  | d :: ds, s, hd, h => by
    obtain ⟨hne, hrest⟩ := List.forall_mem_cons.1 hd
    obtain ⟨hl, hrun⟩ := heard_run settings now ((s.world.perform settings now d).2.map .tell)
      (s := { s with world := (s.world.perform settings now d).1 }) h
    obtain ⟨hl', hall⟩ := heard_performAll ds hrest hl
    refine ⟨hl', hall.trans ?_⟩
    rw [hrun, log, List.cons_append, told_deed hne, told_append, List.append_assoc]
    rfl

end Scene

/-! ## What is followed -/

/-- Every notice goes to the target of the latest registration of its sprite. -/
def Addressed (log : List Entry) : Prop :=
  ∀ pre t n post, log = pre ++ ⟨t, .tell n⟩ :: post → latestTarget n.id pre = some n.target

theorem Addressed.concat {log : List Entry} {e : Entry} (h : Addressed log)
    (he : ∀ n, e.deed = .tell n → latestTarget n.id log = some n.target) :
    Addressed (log ++ [e]) := by
  intro pre t n post heq
  rcases concat_eq_append_cons heq with ⟨rfl, rfl, -⟩ | ⟨mid, -, hm⟩
  · exact he n rfl
  · exact h pre t n mid hm

theorem Addressed.tells (now : Nat) : ∀ (ns : List Notice) {log : List Entry}, Addressed log →
    (∀ n ∈ ns, latestTarget n.id log = some n.target) →
    Addressed (log ++ ns.map fun n => ⟨now, .tell n⟩)
  | [], log, h, _ => by rwa [List.map_nil, List.append_nil]
  | n :: ns, log, h, hn => by
    have hone : Addressed (log ++ [⟨now, .tell n⟩]) := by
      refine h.concat fun n' hn' => ?_
      cases hn'
      exact hn n List.mem_cons_self
    have hrest := Addressed.tells now ns hone fun n' hn' => by
      rw [latestTarget_concat]
      exact hn n' (List.mem_cons_of_mem n hn')
    rwa [List.append_assoc] at hrest

theorem latestTarget_tells (id : SpriteId) (now : Nat) (ns : List Notice) (log : List Entry) :
    latestTarget id (log ++ ns.map fun n => ⟨now, .tell n⟩) = latestTarget id log := by
  induction ns generalizing log with
  | nil => rw [List.map_nil, List.append_nil]
  | cons n ns ih =>
    rw [List.map_cons, List.append_cons, ih, latestTarget_concat]
    rfl

theorem told_tells (now : Nat) (ns : List Notice) :
    told (ns.map fun n => ⟨now, .tell n⟩) = ns := by
  rw [told, List.filterMap_map]
  exact List.filterMap_some

/-- A host that has followed a chronicle is up to date, and knows where every sprite is shown. -/
structure Followed (log : List Entry) (w : World) : Prop where
  mirror : Mirror.hearAll (fun _ => none) (told log) = w.mirror
  target : ∀ id target, w.cast.target? id = some target → latestTarget id log = some target
  addressed : Addressed log

namespace Followed

variable (settings : Settings) (now : Nat) {log : List Entry} {w : World}

theorem initial : Followed [] .initial := ⟨rfl, nofun, by simp [Addressed]⟩

/-- A host that is told of a deed at once follows it. -/
theorem perform (h : Followed log w) {d : Deed} (hd : ∀ n, d ≠ .tell n) :
    Followed (log ++ ⟨now, d⟩ :: (w.perform settings now d).2.map fun n => ⟨now, .tell n⟩)
      (w.perform settings now d).1 := by
  have hlatest : ∀ id target, (d.target? id).or (w.cast.target? id) = some target →
      latestTarget id (log ++ [⟨now, d⟩]) = some target := by
    intro id target ht
    rw [latestTarget_concat]
    rcases hn : d.target? id with _ | t
    · rw [hn, Option.none_or] at ht
      exact h.target id target ht
    · rwa [hn] at ht
  rw [List.append_cons]
  refine ⟨?_, fun id target ht => ?_, ?_⟩
  · have hone : told [⟨now, d⟩] = [] := told_deed hd now []
    rw [told_append, told_append, hone, told_tells, List.append_nil, Mirror.hearAll_append,
      h.mirror, World.hear_perform]
  · rw [latestTarget_tells]
    exact hlatest id target (World.target?_perform settings now w ht)
  · refine Addressed.tells now _ (h.addressed.concat fun n hn => absurd hn (hd n)) fun n hn => ?_
    exact hlatest n.id n.target (World.perform_addresses settings now w hn)

/-- A quiet host follows whatever is done. -/
theorem performAll (ds : List Deed) (hd : ∀ d ∈ ds, ∀ n, d ≠ .tell n) {s : Scene}
    (hs : s.audience.waiting = []) (h : Followed log s.world) :
    Followed (log ++ s.log settings now ds) (s.performAll settings now ds).world
      ∧ (s.performAll settings now ds).audience.waiting = [] := by
  induction ds generalizing s log with
  | nil =>
    rw [Scene.log, List.append_nil]
    exact ⟨h, hs⟩
  | cons d ds ih =>
    obtain ⟨hw, hq⟩ := Scene.perform_quiet settings now hs d
    have h' := h.perform settings now (hd d List.mem_cons_self)
    rw [← hw, ← Scene.log_singleton_quiet settings now hs] at h'
    have hlog : s.log settings now (d :: ds) = s.log settings now [d]
        ++ (s.perform settings now d).log settings now ds :=
      Scene.log_append settings now [d] ds s
    rw [hlog, ← List.append_assoc]
    exact ih (fun e he => hd e (List.mem_cons_of_mem d he)) hq h'

end Followed

namespace Course

variable (settings : Settings) (listening : Listening) (ms : List Move)

theorem deeds_ne_tell (x : Course) (m : Move) : ∀ d ∈ x.deeds settings m, ∀ n, d ≠ .tell n := by
  rintro d hd n rfl
  cases m with
  | call c => cases List.mem_singleton.1 hd
  | play =>
    simp only [deeds] at hd
    split at hd
    · rcases List.mem_cons.1 hd with hd | hd
      · cases hd
      · cases Show.eq_of_mem_finishDeeds hd
    · cases hd
  | alarms =>
    rcases List.mem_cons.1 hd with hd | hd
    · cases hd
    · obtain ⟨a, -, ha⟩ := List.mem_map.1 hd
      cases ha
  | performer place =>
    simp only [deeds] at hd
    split at hd
    · rcases Show.role?_of_mem_performerDeeds settings x.clock hd with hd | hd <;> cases hd
    · cases hd
  | pass duration => cases hd

theorem followed_run : Followed ((start listening []).run settings ms).chronicle
    ((start listening []).run settings ms).engine.world := by
  have hstart : (start listening []).engine.scene.audience.waiting = [] := by
    simp [start, Audience.new]
  refine (run_induction settings (start listening []) (P := fun y =>
    Followed y.chronicle y.engine.world ∧ y.engine.scene.audience.waiting = [])
    ⟨.initial, hstart⟩ (fun y m hy => ?_) ms).1
  have h := Followed.performAll settings y.clock (y.deeds settings m)
    (deeds_ne_tell settings y m) hy.2 hy.1
  rwa [← move_scene] at h

/-- A recording host has recorded all that it was told, in that order. -/
theorem heard_run (reactions : List Reaction) :
    ((start .recording reactions).run settings ms).engine.scene.audience.heard
      = told ((start .recording reactions).run settings ms).chronicle := by
  refine (run_induction settings (start .recording reactions) (P := fun y =>
    y.engine.scene.audience.listening = .recording
      ∧ y.engine.scene.audience.heard = told y.chronicle)
    ⟨rfl, rfl⟩ (fun y m hy => ?_) ms).2
  obtain ⟨hl, hheard⟩ := Scene.heard_performAll settings y.clock (y.deeds settings m)
    (deeds_ne_tell settings y m) hy.1
  rw [← move_scene, hy.2, ← told_append] at hheard
  exact ⟨(congrArg (·.audience.listening) (move_scene settings y m)).trans hl, hheard⟩

/-- After any moves of an engine whose host never calls back: the host's mirror shows what every
sprite looks like, and every notice went to the target of its sprite's latest registration.  What
is told is what a recording host records, also one that calls back. -/
theorem mirror_run :
    (∀ id, Mirror.hearAll (fun _ => none) (told ((start listening []).run settings ms).chronicle) id
        = (((start listening []).run settings ms).engine.world.cast.find? id).map
          (·.figure.snapshot.copy))
      ∧ (∀ pre t n post, ((start listening []).run settings ms).chronicle
          = pre ++ ⟨t, .tell n⟩ :: post →
        latestTarget n.id pre = some n.target)
      ∧ ∀ reactions, told ((start .recording reactions).run settings ms).chronicle
        = ((start .recording reactions).run settings ms).engine.scene.audience.heard :=
  ⟨fun id => congrFun (followed_run settings listening ms).mirror id,
    (followed_run settings listening ms).addressed,
    fun reactions => (heard_run settings ms reactions).symm⟩

/-- A host hears of a registration, at the target that it gives, and records it. -/
theorem told_of_registration : ∃ n,
    ((start .recording []).run .default [.call (.register "a" .center [] "t")]).chronicle
        = [⟨0, .answer (.register "a" .center [] "t")⟩] ++ ⟨0, .tell n⟩ :: []
      ∧ latestTarget n.id [⟨0, .answer (.register "a" .center [] "t")⟩] = some n.target
      ∧ [n] = ((start .recording []).run .default
          [.call (.register "a" .center [] "t")]).engine.scene.audience.heard := by
  have hlog := Scene.log_singleton_quiet .default 0 (s := (start .recording []).engine.scene) rfl
    (.answer (.register "a" .center [] "t"))
  have hchronicle : ((start .recording []).run .default
      [.call (.register "a" .center [] "t")]).chronicle = _ := (List.nil_append _).trans hlog
  obtain ⟨-, haddressed, hheard⟩ :=
    mirror_run .default .recording [.call (.register "a" .center [] "t")]
  exact ⟨_, hchronicle, haddressed _ 0 _ [] hchronicle,
    (congrArg told hchronicle).symm.trans (hheard [])⟩

end Course

end SpriteCanvas
