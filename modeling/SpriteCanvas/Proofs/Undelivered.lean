import SpriteCanvas.Proofs.Hearing
import SpriteCanvas.Proofs.Lawful

/-!
# Collected and not yet delivered

The notices of a deed are collected while it is done and delivered afterwards.  Calls that the host
makes in between collect notices of their own, and these go first.  So at every time the notices
that wait form a stack, of which the host is told the top (`Moment.Orderly`); a removal is told as
soon as it is made, in front of all that waits.

The host may thus hear of a sprite that was removed, but only what waited when it was
(`Course.updates_after_removal`).
-/

namespace SpriteCanvas

/-! ## What waits -/

namespace Moment

variable (settings : Settings) (n : Moment)

/-- The notices that wait after an entry. -/
def waitingAfter (waiting : List Notice) (e : Entry) : List Notice :=
  (n.world.perform settings e.time e.deed).2
    ++ if e.notice?.isSome then waiting.tail else waiting

/-- The notices that wait after a stretch of a chronicle. -/
def waiting : Moment → List Notice → List Entry → List Notice
  | _, ns, [] => ns
  | n, ns, e :: log => waiting (n.perform settings e) (n.waitingAfter settings ns e) log

/-- The host is told the notice that waits in front, and a removal before anything else
happens. -/
def Orderly : Moment → List Notice → List Entry → Prop
  | _, _, [] => True
  | n, ns, e :: log =>
    ((∀ notice, e.notice? = some notice → ns.head? = some notice)
      ∧ ∀ id target, .removed id target ∈ ns → e.notice? = some (.removed id target))
      ∧ Orderly (n.perform settings e) (n.waitingAfter settings ns e) log

theorem waiting_append (ns : List Notice) (log log' : List Entry) :
    waiting settings n ns (log ++ log')
      = waiting settings (n.after settings log) (waiting settings n ns log) log' := by
  induction log generalizing n ns with
  | nil => rfl
  | cons e log ih => exact ih _ _

theorem orderly_append (ns : List Notice) (log log' : List Entry) :
    Orderly settings n ns (log ++ log')
      ↔ Orderly settings n ns log
        ∧ Orderly settings (n.after settings log) (waiting settings n ns log) log' := by
  induction log generalizing n ns with
  | nil => simp [Orderly, waiting]
  | cons e log ih => simp only [List.cons_append, Orderly, waiting, after_cons, ih, and_assoc]

end Moment

/-! ## Removals -/

namespace World

variable {w : World} {settings : Settings} {now : Nat}

theorem update_of_mem_notice {id : SpriteId} {changes : List Change} {n : Notice}
    (h : n ∈ w.notice id changes) : ∃ u, n = .update u := by
  unfold notice at h
  split at h
  · exact ⟨_, List.mem_singleton.1 h⟩
  · cases h

theorem update_of_mem_strikeAll : ∀ (ids : List SpriteId) {w : World} {n : Notice},
    n ∈ (strikeAll settings now ids w).2 → ∃ u, n = .update u
  | [], _, _, h => by cases h
  | id :: ids, w, n, h => by
    rcases List.mem_append.1 h with h | h
    · dsimp only [strike] at h
      split at h
      · cases h
      · exact update_of_mem_notice h
    · exact update_of_mem_strikeAll ids h

theorem update_of_mem_execute {m : Member} {c : Command} {n : Notice}
    (h : n ∈ (w.execute settings now m c).2) : ∃ u, n = .update u := by
  unfold execute at h
  dsimp only at h
  split at h
  · rcases List.mem_append.1 h with h | h
    · exact update_of_mem_notice h
    · exact update_of_mem_strikeAll _ h
  · exact update_of_mem_notice h

theorem update_of_mem_ring {alarm : AlarmId} {expiry : Expiry} {n : Notice}
    (h : n ∈ (w.ring alarm expiry).2) : ∃ u, n = .update u := by
  unfold ring at h
  split at h
  · cases h
  · cases expiry <;> dsimp only at h <;> split at h
    · exact update_of_mem_notice h
    · cases h
    · exact update_of_mem_notice h
    · cases h

/-- Only taking a sprite out tells of a removal, and it tells of nothing else. -/
theorem notices_of_removed {d : Deed} {id : SpriteId} {target : String}
    (h : .removed id target ∈ (w.perform settings now d).2) :
    d = .answer (.unregister id) ∧ (w.perform settings now d).2 = [.removed id target] := by
  have hno : ¬ ∃ u, Notice.removed id target = .update u := nofun
  cases d with
  | answer c =>
    cases c with
    | unregister i =>
      simp only [perform, reply, unregister] at h ⊢
      split at h
      · cases h
      · obtain ⟨rfl, rfl⟩ : id = i ∧ target = _ := by simpa using h
        exact ⟨rfl, rfl⟩
    | queueCheck i =>
      simp only [perform, reply] at h
      split at h <;> cases h
    | register | setPosition | refresh => exact absurd (update_of_mem_notice h) hno
    | checkAll | drainChecks => exact absurd (update_of_mem_strikeAll _ h) hno
    | stop =>
      obtain ⟨m, -, h⟩ := List.mem_flatMap.1 h
      exact absurd (update_of_mem_notice h) hno
    | _ => cases h
  | begin run =>
    simp only [perform] at h
    split at h <;> cases h
  | execute r b =>
    simp only [perform] at h
    split at h
    · exact absurd (update_of_mem_execute h) hno
    · cases h
  | drain r => exact absurd (update_of_mem_strikeAll _ h) hno
  | ring alarm expiry => exact absurd (update_of_mem_ring h) hno
  | _ => cases h

end World

/-! ## Deliveries -/

namespace Errand

def notice? : Errand → Option Notice
  | tell n => some n
  | call _ | report _ => none

/-- The notices that errands deliver, in order. -/
def notices (errands : List Errand) : List Notice := errands.filterMap notice?

@[simp] theorem notices_append (errands errands' : List Errand) :
    notices (errands ++ errands') = notices errands ++ notices errands' :=
  List.filterMap_append

@[simp] theorem notices_map_tell (ns : List Notice) : notices (ns.map .tell) = ns := by
  rw [notices, List.filterMap_map]
  exact List.filterMap_some

@[simp] theorem notices_map_call (cs : List Call) : notices (cs.map .call) = [] := by
  rw [notices, List.filterMap_map]
  exact List.filterMap_eq_nil_iff.2 fun _ _ => rfl

/-- Only the first errand tells of a removal. -/
def Prompt (errands : List Errand) : Prop :=
  ∀ id target, .removed id target ∉ notices errands.tail

theorem prompt_of_not_mem {errands : List Errand}
    (h : ∀ id target, .removed id target ∉ notices errands) : Prompt errands :=
  fun id target hr => h id target ((List.tail_sublist errands).filterMap notice? |>.mem hr)

theorem prompt_notices (settings : Settings) (now : Nat) (w : World) (d : Deed)
    {errands : List Errand} (h : ∀ id target, .removed id target ∉ notices errands) :
    Prompt ((w.perform settings now d).2.map .tell ++ errands) := by
  intro id target hr
  have hmem : .removed id target ∈ (w.perform settings now d).2.tail := by
    rcases hns : (w.perform settings now d).2 with _ | ⟨n, ns⟩
    · rw [hns] at hr
      exact absurd ((List.tail_sublist errands).filterMap notice? |>.mem hr) (h id target)
    · rw [hns, List.map_cons, List.cons_append, List.tail_cons, notices_append, notices_map_tell]
        at hr
      exact (List.mem_append.1 hr).resolve_right (h id target)
  rw [(World.notices_of_removed (List.mem_of_mem_tail hmem)).2] at hmem
  cases hmem

end Errand

namespace Scene

variable (settings : Settings) (now : Nat)

/-- All that is to be delivered is, in order. -/
theorem sublist_runLog (errands : List Errand) (s : Scene) :
    ((Errand.notices errands).map fun n => Entry.mk now (.tell n)).Sublist
      (s.runLog settings now errands) := by
  fun_induction runLog settings now errands s with
  | case1 s => exact .slnil
  | case2 n errands s ih =>
    rw [Errand.notices_append, Errand.notices_map_call, List.nil_append] at ih
    exact ih.cons_cons _
  | case3 c errands s reply ih =>
    rw [Errand.notices_append, List.map_append] at ih
    exact ((List.sublist_append_right _ _).trans ih).cons _
  | case4 a errands s ih => exact ih

/-- The host is told all notices of a deed, in order, whatever it does in between. -/
theorem sublist_log (d : Deed) (s : Scene) :
    ((s.world.perform settings now d).2.map fun n => Entry.mk now (.tell n)).Sublist
      (s.log settings now [d]) := by
  have hrun := sublist_runLog settings now ((s.world.perform settings now d).2.map .tell)
    { s with world := (s.world.perform settings now d).1 }
  rw [Errand.notices_map_tell] at hrun
  rw [log, log, List.append_nil]
  exact hrun.cons _

end Scene

namespace Moment

/-- A stretch of a chronicle in which all that waits is delivered in order. -/
structure Delivers (settings : Settings) (n : Moment) (ns : List Notice) (log : List Entry) :
    Prop where
  orderly : n.Orderly settings ns log
  waiting : n.waiting settings ns log = []

variable {settings : Settings} {now : Nat} {n : Moment} {ns : List Notice} {log log' : List Entry}
  {s : Scene}

theorem Delivers.cons {e : Entry}
    (hhead : ∀ notice, e.notice? = some notice → ns.head? = some notice)
    (hremoved : ∀ id target, .removed id target ∈ ns → e.notice? = some (.removed id target))
    (h : (n.perform settings e).Delivers settings (n.waitingAfter settings ns e) log) :
    n.Delivers settings ns (e :: log) :=
  ⟨⟨⟨hhead, hremoved⟩, h.orderly⟩, h.waiting⟩

theorem Delivers.append (h : n.Delivers settings ns log)
    (h' : (n.after settings log).Delivers settings [] log') :
    n.Delivers settings ns (log ++ log') := by
  refine ⟨(orderly_append settings n ns log log').2 ⟨h.orderly, ?_⟩, ?_⟩
  · rw [h.waiting]
    exact h'.orderly
  · rw [waiting_append, h.waiting]
    exact h'.waiting

theorem delivers_runLog (errands : List Errand) (hp : Errand.Prompt errands)
    (hw : n.world = s.world) :
    n.Delivers settings (Errand.notices errands) (s.runLog settings now errands) := by
  fun_induction Scene.runLog settings now errands s generalizing n with
  | case1 s => exact ⟨trivial, rfl⟩
  | case2 notice errands s ih =>
    have hrest := ih (n := n.perform settings ⟨now, .tell notice⟩)
      (Errand.prompt_of_not_mem fun id target hr => hp id target (by simpa using hr)) hw
    rw [Errand.notices_append, Errand.notices_map_call, List.nil_append] at hrest
    refine .cons (fun m hm => hm) (fun id target hr => ?_) hrest
    exact congrArg some ((List.mem_cons.1 hr).resolve_right (hp id target)).symm
  | case3 c errands s reply =>
    rename_i ih
    have hreply : reply = n.world.reply settings now c := hw ▸ rfl
    have hrest := ih (n := n.perform settings ⟨now, .answer c⟩) ?_ ?_
    · rw [Errand.notices_append, Errand.notices_map_tell] at hrest
      have hwait : n.waitingAfter settings (Errand.notices (.call c :: errands)) ⟨now, .answer c⟩
          = reply.notices ++ Errand.notices (.report reply.answer :: errands) := by
        rw [hreply]
        rfl
      refine .cons (fun m hm => by cases hm) (fun id target hr => absurd hr (hp id target)) ?_
      rw [hwait]
      exact hrest
    · rw [hreply]
      exact Errand.prompt_notices settings now n.world (.answer c) hp
    · rw [hreply]
      rfl
  | case4 a errands s ih => exact ih (Errand.prompt_of_not_mem hp) hw

theorem delivers_log (ds : List Deed) (hd : ∀ d ∈ ds, ∀ notice, d ≠ .tell notice)
    (hw : n.world = s.world) : n.Delivers settings [] (s.log settings now ds) := by
  induction ds generalizing n s with
  | nil => exact ⟨trivial, rfl⟩
  | cons d ds ih =>
    have hnone : (Entry.mk now d).notice? = none := by
      cases d with
      | tell notice => exact absurd rfl (hd _ List.mem_cons_self notice)
      | _ => rfl
    have hp : Errand.Prompt ((s.world.perform settings now d).2.map .tell ++ []) :=
      Errand.prompt_notices settings now s.world d fun id target => List.not_mem_nil
    have hw' : (n.perform settings ⟨now, d⟩).world = (s.world.perform settings now d).1 := by
      rw [Moment.perform, hw]
    have hwait : n.waitingAfter settings [] ⟨now, d⟩ = (s.world.perform settings now d).2 := by
      rw [waitingAfter, hnone, hw]
      exact List.append_nil _
    have hrun : (n.perform settings ⟨now, d⟩).Delivers settings _ (Scene.runLog settings now _
        { s with world := (s.world.perform settings now d).1 }) := delivers_runLog _ hp hw'
    rw [List.append_nil, Errand.notices_map_tell] at hrun
    rw [Scene.log, List.cons_append]
    refine .cons (fun m hm => ?_) (fun id target hr => absurd hr List.not_mem_nil) ?_
    · rw [hnone] at hm
      cases hm
    · rw [hwait]
      exact hrun.append (ih (fun e he => hd e (List.mem_cons_of_mem d he)) (world_runLog _ hw'))

end Moment

/-! ## After a removal -/

/-- The updates of a sprite among notices. -/
def updatesOf (id : SpriteId) (ns : List Notice) : List Notice :=
  ns.filter fun n =>
    match n with
    | .update u => u.id = id
    | .removed _ _ => false

theorem updatesOf_append (id : SpriteId) (ns ns' : List Notice) :
    updatesOf id (ns ++ ns') = updatesOf id ns ++ updatesOf id ns' :=
  List.filter_append ..

theorem updatesOf_eq_nil {id : SpriteId} {ns : List Notice} (h : ∀ n ∈ ns, n.id ≠ id) :
    updatesOf id ns = [] := by
  refine List.filter_eq_nil_iff.2 fun n hn => ?_
  cases n with
  | update u => exact fun hid => h _ hn (of_decide_eq_true hid)
  | removed i target => exact Bool.false_ne_true

namespace Moment

/-- A removal waits only in front, and its sprite is not registered. -/
structure Foremost (n : Moment) (ns : List Notice) : Prop where
  find?_eq : ∀ id target, .removed id target ∈ ns → n.world.cast.find? id = none
  front : ∀ id target, .removed id target ∉ ns.tail

variable {settings : Settings} {n : Moment} {ns : List Notice} {log : List Entry} {id : SpriteId}
  {target : String} {e : Entry}

theorem deed_of_notice? {notice : Notice} (h : e.notice? = some notice) :
    e.deed = .tell notice := by
  obtain ⟨t, d⟩ := e
  cases d with
  | tell m => exact congrArg _ (Option.some.inj h)
  | _ => cases h

theorem waitingAfter_of_some {notice : Notice} (h : e.notice? = some notice) :
    n.waitingAfter settings ns e = ns.tail := by
  rw [waitingAfter, h, deed_of_notice? h]
  rfl

theorem waitingAfter_of_none (h : e.notice? = none) :
    n.waitingAfter settings ns e = (n.world.perform settings e.time e.deed).2 ++ ns := by
  rw [waitingAfter, h]
  rfl

theorem Foremost.perform (h : n.Foremost ns)
    (hremoved : ∀ id target, .removed id target ∈ ns → e.notice? = some (.removed id target)) :
    (n.perform settings e).Foremost (n.waitingAfter settings ns e) := by
  rcases hn : e.notice? with _ | notice
  · have hnot : ∀ id target, .removed id target ∉ ns := fun id target hr => by
      cases hn.symm.trans (hremoved id target hr)
    rw [waitingAfter_of_none hn]
    refine ⟨fun id target hr => ?_, fun id target hr => ?_⟩
    · have hnotice := (List.mem_append.1 hr).resolve_right (hnot id target)
      have hd := (World.notices_of_removed hnotice).1
      simp only [Moment.perform, hd, World.perform, World.reply, World.unregister_cast,
        Cast.find?_remove, if_true]
    · have hp : Errand.Prompt ((n.world.perform settings e.time e.deed).2.map .tell
          ++ ns.map .tell) :=
        Errand.prompt_notices settings e.time n.world e.deed (by simpa using hnot)
      refine hp id target ?_
      rwa [← List.map_append, ← List.map_tail, Errand.notices_map_tell]
  · rw [waitingAfter_of_some hn]
    refine ⟨fun id target hr => absurd hr (h.front id target), fun id target hr => ?_⟩
    exact h.front id target (List.mem_of_mem_tail hr)

theorem Foremost.after (h : n.Foremost ns) (ho : n.Orderly settings ns log) :
    (n.after settings log).Foremost (n.waiting settings ns log) := by
  induction log generalizing n ns with
  | nil => exact h
  | cons e log ih => exact ih (h.perform ho.1.2) ho.2

/-- A removal is told right after it was made. -/
theorem Foremost.last_of_removed (h : n.Foremost ns) (ho : n.Orderly settings ns [e])
    (hr : .removed id target ∈ n.waitingAfter settings ns e) :
    e.deed = .answer (.unregister id)
      ∧ n.waitingAfter settings ns e = .removed id target :: ns := by
  rcases hn : e.notice? with _ | notice
  · rw [waitingAfter_of_none hn] at hr ⊢
    rcases List.mem_append.1 hr with hr | hr
    · obtain ⟨hd, hns⟩ := World.notices_of_removed hr
      exact ⟨hd, by rw [hns]; rfl⟩
    · cases hn.symm.trans (ho.1.2 id target hr)
  · rw [waitingAfter_of_some hn] at hr
    exact absurd hr (h.front id target)

/-- While nobody has a name, the host hears of it what waits, and nothing else. -/
theorem updates_of_find?_none (h : n.world.cast.find? id = none)
    (ho : n.Orderly settings ns log) (hlog : ∀ e ∈ log, e.deed.target? id = none) :
    updatesOf id (told log) ++ updatesOf id (n.waiting settings ns log) = updatesOf id ns := by
  induction log generalizing n ns with
  | nil => rfl
  | cons e log ih =>
    have he := hlog e List.mem_cons_self
    have hrest := ih (World.find?_perform_of_none settings e.time h he) ho.2
      fun e' he' => hlog e' (List.mem_cons_of_mem e he')
    rcases hn : e.notice? with _ | notice
    · have hnew : updatesOf id (n.world.perform settings e.time e.deed).2 = [] := by
        refine updatesOf_eq_nil fun m hm hid => ?_
        have ha := World.perform_addresses settings e.time n.world hm
        rw [hid, he, Cast.target?, h] at ha
        cases ha
      rw [waitingAfter_of_none hn, updatesOf_append, hnew] at hrest
      rw [told, List.filterMap_cons_none hn]
      rwa [waiting, waitingAfter_of_none hn]
    · obtain ⟨tl, rfl⟩ := List.head?_eq_some_iff.1 (ho.1.1 notice hn)
      rw [waitingAfter_of_some hn] at hrest
      rw [told, List.filterMap_cons_some hn, waiting, waitingAfter_of_some hn,
        show notice :: List.filterMap Entry.notice? log = [notice] ++ told log from rfl,
        updatesOf_append, List.append_assoc, hrest, ← updatesOf_append]
      rfl

end Moment

namespace Course

variable (settings : Settings) (listening : Listening) (reactions : List Reaction) (ms : List Move)

/-- Whatever happens, all that is collected is delivered in order. -/
theorem delivers_run : Moment.start.Delivers settings []
    ((start listening reactions).run settings ms).chronicle :=
  (chronicle_induction (P := fun log => Moment.start.Delivers settings [] log) ⟨trivial, rfl⟩
    (fun y m ha h => h.append (Moment.delivers_log _ (deeds_ne_tell settings y m) ha.world))
    listening reactions ms).1

/-- Let the host be told somewhere in the chronicle of any moves that a sprite was removed.  It is
told so right after the sprite was taken out.  Until the sprite is registered again, the updates
that the host hears of it are those that had been collected before it was taken out and waited
then to be delivered, in their order. -/
theorem updates_after_removal {pre mid rest : List Entry} {t : Nat} {id : SpriteId}
    {target : String}
    (hchronicle : ((start listening reactions).run settings ms).chronicle
      = pre ++ ⟨t, .tell (.removed id target)⟩ :: (mid ++ rest))
    (hmid : ∀ e ∈ mid, e.deed.target? id = none) :
    ∃ before t', pre = before ++ [⟨t', .answer (.unregister id)⟩]
      ∧ Moment.start.waiting settings [] pre
        = .removed id target :: Moment.start.waiting settings [] before
      ∧ updatesOf id (told mid) <+: updatesOf id (Moment.start.waiting settings [] before) := by
  have ho := (delivers_run settings listening reactions ms).orderly
  rw [hchronicle, Moment.orderly_append] at ho
  obtain ⟨hpre, ⟨hhead, -⟩, hrest⟩ := ho
  obtain ⟨tl, hwait⟩ := List.head?_eq_some_iff.1 (hhead _ rfl)
  have hstart : Moment.start.Foremost [] := ⟨nofun, nofun⟩
  have habsent := (hstart.after hpre).find?_eq id target (hwait ▸ List.mem_cons_self)
  -- The entry before is the one that put the removal in front.
  rcases List.eq_nil_or_concat pre with rfl | ⟨before, e, hlast⟩
  · cases hwait
  rw [List.concat_eq_append] at hlast
  subst hlast
  rw [Moment.orderly_append] at hpre
  rw [Moment.waiting_append, Moment.waiting, Moment.waiting] at hwait
  obtain ⟨hd, hlast⟩ := (hstart.after hpre.1).last_of_removed hpre.2 (hwait ▸ List.mem_cons_self)
  refine ⟨before, e.time, by rw [← hd], ?_, ?_⟩
  · rw [Moment.waiting_append, Moment.waiting, Moment.waiting, hlast]
  · have hmid' := Moment.updates_of_find?_none (n := (Moment.start.after settings
      (before ++ [e])).perform settings ⟨t, .tell (.removed id target)⟩) habsent
      ((Moment.orderly_append settings _ _ _ _).1 hrest).1 hmid
    rw [Moment.waitingAfter_of_some rfl, Moment.waiting_append, Moment.waiting, Moment.waiting,
      hlast] at hmid'
    exact ⟨_, hmid'⟩

end Course

/-! ## A removal in the middle of a delivery -/

namespace World

variable (settings : Settings) (now : Nat) {w : World} {id : SpriteId} {m : Member}

theorem notices_register_of_none (h : w.cast.find? id = none) (position : Point) (script : Script)
    (target : String) :
    (w.reply settings now (.register id position script target)).notices
      = [.update ⟨id, target, [.registered, .position], (Figure.new position).snapshot⟩] := by
  simp only [reply, notice, Cast.find?_register_of_none h]

theorem notices_strike (h : w.cast.find? id = some m) : ∃ u : Update,
    (w.strike settings now id).2 = [.update u] ∧ u.id = id ∧ u.target = m.target := by
  simp only [strike, h, notice, Cast.find?_update_self, Option.map_some]
  exact ⟨_, rfl, rfl, rfl⟩

/-- A check of all, when just two touch, tells of one and then of the other. -/
theorem perform_checkAll_of_pair {i j : SpriteId} {target : String}
    (hpairs : w.touchingPairs settings = [(i, j)]) (hi : w.cast.find? i = some m)
    (hj : w.cast.target? j = some target) : ∃ w' u u',
    w.perform settings now (.answer .checkAll) = (w', [.update u, .update u'])
      ∧ u.id = i ∧ u'.id = j ∧ u'.target = target ∧ w'.cast.target? j = some target := by
  obtain ⟨u, hu, hid, -⟩ := notices_strike settings now hi
  have hj' := ((strike_redraws settings now w i).redrawn.target?_eq j).trans hj
  obtain ⟨m', hm', htarget⟩ := Option.map_eq_some_iff.1 hj'
  obtain ⟨u', hu', hid', htarget'⟩ := notices_strike settings now hm'
  refine ⟨_, u, u', ?_, hid, hid', htarget'.trans htarget,
    ((strike_redraws settings now _ j).redrawn.target?_eq j).trans hj'⟩
  simp only [perform, reply, scan, hpairs, strikePairs, List.flatMap_cons, List.flatMap_nil,
    List.append_nil, strikeAll, hu, hu', List.cons_append, List.nil_append]

end World

namespace Scene

variable (settings : Settings) (now : Nat) {s : Scene}

/-- A call that brings one notice, to which the host does not react. -/
theorem perform_answer_one {c : Call} {n : Notice}
    (hn : (s.world.reply settings now c).notices = [n]) (h : (s.audience.hear now n).1 = []) :
    s.perform settings now (.answer c)
      = ⟨(s.world.reply settings now c).world, (s.audience.hear now n).2⟩ := by
  simp only [perform, World.perform, hn, deliver, List.map_cons, List.map_nil]
  rw [run, h, List.map_nil, List.nil_append, run]

/-- A host that takes a sprite out between two updates is told of that, and then of the second
update. -/
theorem runLog_removal_in_between {u : Update} (u' : Update) {id : SpriteId} {target : String}
    {a : Audience} (hhear : s.audience.hear now (.update u) = ([.unregister id], a))
    (ha : a.waiting = [])
    (hr : (s.world.reply settings now (.unregister id)).notices = [.removed id target]) :
    s.runLog settings now [.tell (.update u), .tell (.update u')]
      = [⟨now, .tell (.update u)⟩, ⟨now, .answer (.unregister id)⟩,
        ⟨now, .tell (.removed id target)⟩, ⟨now, .tell (.update u')⟩] := by
  obtain ⟨hnone, hquiet⟩ := Audience.hear_quiet now ha (.removed id target)
  have hlast := runLog_quiet settings now [.update u'] (s := ⟨(s.world.reply settings now
    (.unregister id)).world, (a.hear now (.removed id target)).2.record (.reaction
      (s.world.reply settings now (.unregister id)).answer)⟩) hquiet
  simp only [List.map_cons, List.map_nil] at hlast
  rw [runLog, hhear]
  simp only [List.map_cons, List.map_nil, List.cons_append, List.nil_append]
  rw [runLog]
  simp only [hr, List.map_cons, List.map_nil, List.cons_append, List.nil_append]
  rw [runLog, hnone, List.map_nil, List.nil_append, runLog, hlast]

end Scene

namespace Course

/-- Two sprites at one place, and a host that takes out `b` when it hears of `a` once more. -/
theorem scene_of_two : ∃ w events m,
    ((start .recording [⟨"a", 2, .unregister "b"⟩]).run .default
        [.call (.register "a" .center [] "s"), .call (.register "b" .center [] "t")]).engine.scene
      = ⟨w, .recording, [⟨"a", 1, .unregister "b"⟩], events⟩
      ∧ w.touchingPairs .default = [("a", "b")] ∧ w.cast.find? "a" = some m
      ∧ w.cast.target? "b" = some "t" := by
  generalize hs : (start .recording [⟨"a", 2, .unregister "b"⟩]).engine.scene = s
  have hfresh : s.world.cast.find? "a" = none := hs ▸ rfl
  generalize hw : (s.world.reply .default 0 (.register "a" .center [] "s")).world = w
  have hfresh' : w.cast.find? "b" = none := by
    rw [← hw, ← hs]
    rfl
  have hfirst := Scene.perform_answer_one .default 0
    (World.notices_register_of_none .default 0 hfresh .center [] "s") (by rw [← hs]; rfl)
  obtain ⟨events, hheard⟩ : ∃ events, s.perform .default 0 (.answer (.register "a" .center [] "s"))
      = ⟨w, .recording, [⟨"a", 1, .unregister "b"⟩], events⟩ := by
    rw [hfirst, hw, ← hs]
    exact ⟨_, rfl⟩
  have hsecond := Scene.perform_answer_one .default 0
    (s := ⟨w, .recording, [⟨"a", 1, .unregister "b"⟩], events⟩)
    (World.notices_register_of_none .default 0 hfresh' .center [] "t") rfl
  have hscene : ((start .recording [⟨"a", 2, .unregister "b"⟩]).run .default
      [.call (.register "a" .center [] "s"), .call (.register "b" .center [] "t")]).engine.scene
      = (s.perform .default 0 (.answer (.register "a" .center [] "s"))).perform .default 0
        (.answer (.register "b" .center [] "t")) := by
    rw [← hs]
    rfl
  obtain ⟨m, hm⟩ : ∃ m, (w.reply .default 0 (.register "b" .center [] "t")).world.cast.find? "a"
      = some m := by
    rw [World.reply, Cast.find?_register_of_ne (by decide), ← hw, World.reply,
      Cast.find?_register_of_none hfresh]
    exact ⟨_, rfl⟩
  have hpairs : (w.reply .default 0 (.register "b" .center [] "t")).world.touchingPairs .default
      = [("a", "b")] := by
    rw [← hw, ← hs]
    decide +kernel
  exact ⟨_, _, m, hscene.trans ((congrArg _ hheard).trans hsecond), hpairs, hm,
    Cast.target?_register w.cast "b" "t" .center []⟩

theorem chronicle_of_removal_in_between : ∃ pre u,
    ((start .recording [⟨"a", 2, .unregister "b"⟩]).run .default
        ([.call (.register "a" .center [] "s"), .call (.register "b" .center [] "t")]
          ++ [.call .checkAll])).chronicle
      = pre ++ ⟨0, .tell (.removed "b" "t")⟩ :: ([⟨0, .tell (.update u)⟩] ++ [])
      ∧ u.id = "b" ∧ u.target = "t" := by
  obtain ⟨w, events, m, hscene, hpairs, hm, htarget⟩ := scene_of_two
  obtain ⟨w', u, u', hcheck, hid, hid', htarget', hleft⟩ :=
    World.perform_checkAll_of_pair .default 0 hpairs hm htarget
  obtain ⟨m', hm', ht⟩ := Option.map_eq_some_iff.1 hleft
  have hremoved : (w'.reply .default 0 (.unregister "b")).notices = [.removed "b" "t"] := by
    simp only [World.reply, World.unregister, hm', ht]
  have hhear : Audience.hear ⟨.recording, [⟨"a", 1, .unregister "b"⟩], events⟩ 0 (.update u)
      = ([.unregister "b"], ⟨.recording, [], .update u 0 :: events⟩) := by
    obtain ⟨_, _, _, _⟩ := u
    obtain rfl : _ = "a" := hid
    rfl
  generalize hms : ([.call (.register "a" .center [] "s"), .call (.register "b" .center [] "t")] :
    List Move) = ms at hscene ⊢
  have hclock : ((start .recording [⟨"a", 2, .unregister "b"⟩]).run .default ms).clock = 0 := by
    rw [← hms]
    rfl
  refine ⟨((start .recording [⟨"a", 2, .unregister "b"⟩]).run .default ms).chronicle
    ++ [⟨0, .answer .checkAll⟩, ⟨0, .tell (.update u)⟩, ⟨0, .answer (.unregister "b")⟩], u', ?_,
    hid', htarget'⟩
  have hlog := Scene.runLog_removal_in_between .default 0 (s := ⟨w', .recording,
    [⟨"a", 1, .unregister "b"⟩], events⟩) u' hhear rfl hremoved
  simp only [run_append, run, move, hscene, hclock, deeds, Scene.log, hcheck, List.map_cons,
    List.map_nil, hlog, List.append_assoc, List.cons_append, List.nil_append]

/-- What waited for `b` when it was taken out is told after that. -/
theorem told_after_removal : ∃ pre mid rest u,
    ((start .recording [⟨"a", 2, .unregister "b"⟩]).run .default
        ([.call (.register "a" .center [] "s"), .call (.register "b" .center [] "t")]
          ++ [.call .checkAll])).chronicle
      = pre ++ ⟨0, .tell (.removed "b" "t")⟩ :: (mid ++ rest)
      ∧ (∀ e ∈ mid, e.deed.target? "b" = none)
      ∧ .update u ∈ updatesOf "b" (told mid) := by
  obtain ⟨pre, u, hchronicle, hid, -⟩ := chronicle_of_removal_in_between
  refine ⟨pre, _, [], u, hchronicle, by simp [Deed.target?], ?_⟩
  exact List.mem_filter.2 ⟨List.mem_singleton_self _, by simpa using hid⟩

/-- It is all that is told of `b`, and it waited in front of the removal. -/
theorem updates_after_removal_in_between : ∃ pre mid rest before t',
    ((start .recording [⟨"a", 2, .unregister "b"⟩]).run .default
        ([.call (.register "a" .center [] "s"), .call (.register "b" .center [] "t")]
          ++ [.call .checkAll])).chronicle
      = pre ++ ⟨0, .tell (.removed "b" "t")⟩ :: (mid ++ rest)
      ∧ (∀ e ∈ mid, e.deed.target? "b" = none)
      ∧ pre = before ++ [⟨t', .answer (.unregister "b")⟩]
      ∧ updatesOf "b" (told mid) <+: updatesOf "b" (Moment.start.waiting .default [] before) := by
  obtain ⟨pre, u, hchronicle, -, -⟩ := chronicle_of_removal_in_between
  have hmid : ∀ e ∈ [(⟨0, .tell (.update u)⟩ : Entry)], e.deed.target? "b" = none := by
    simp [Deed.target?]
  obtain ⟨before, t', hpre, -, hprefix⟩ :=
    updates_after_removal .default .recording _ _ hchronicle hmid
  exact ⟨_, _, _, before, t', hchronicle, hmid, hpre, hprefix⟩

end Course

end SpriteCanvas
