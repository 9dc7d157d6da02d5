import SpriteCanvas.Proofs.Draining
import SpriteCanvas.Proofs.Undelivered

/-!
# Lighting up and going out

A sprite lights up when it is struck, and it goes out when it is taken out or when the alarm of its
highlight rings; nothing else a deed does has to do with it (`World.isLit_perform`).  Only the alarm
is told to the host as the end of a highlight (`World.Dims.notices`,
`World.not_dims_of_mem_perform`), and that before anything else happens (`Moment.Prompt`).
-/

namespace SpriteCanvas

/-- Whether the host is told that a sprite is no longer highlighted. -/
def Notice.dims (id : SpriteId) : Notice → Bool
  | .update u => u.id = id && u.changes.contains .highlight && !u.snapshot.highlighted
  | .removed _ _ => false

namespace World

/-- Whether a sprite is registered and highlighted. -/
def isLit (w : World) (id : SpriteId) : Bool := (w.slots (.highlight id)).isSome

variable {settings : Settings} {now : Nat} {w w' : World} {id : SpriteId} {m : Member}

theorem isLit_congr (h : w'.cast.highlight? = w.cast.highlight?) (id : SpriteId) :
    w'.isLit id = w.isLit id :=
  congrArg Option.isSome (congrFun h id)

theorem isLit_of_slots {e : Expiry} {o : Option AlarmId}
    (h : w'.slots = Function.update w.slots e o) (he : e ≠ .highlight id) :
    w'.isLit id = w.isLit id := by
  rw [isLit, h, Function.update_of_ne (Ne.symm he), isLit]

/-! ## Who is struck -/

theorem mem_ids_of_mem_eachOf {pairs : List (SpriteId × SpriteId)}
    (h : ∀ p ∈ pairs, p.2 ∈ w.cast.near settings.detector p.1) (hid : id ∈ eachOf pairs) :
    id ∈ w.cast.ids := by
  obtain ⟨p, hp, hid⟩ := List.mem_flatMap.1 hid
  rcases List.mem_cons.1 hid with rfl | hid
  · exact Cast.mem_ids_of_mem_near (Cast.mem_near_comm.1 (h p hp))
  · exact List.mem_singleton.1 hid ▸ Cast.mem_ids_of_mem_near (h p hp)

theorem mem_ids_of_mem_touching (hid : id ∈ eachOf (w.touchingPairs settings)) :
    id ∈ w.cast.ids :=
  mem_ids_of_mem_eachOf (fun _ hp => (Cast.mem_pairs_iff.1 hp).2) hid

theorem mem_ids_of_mem_waiting (hid : id ∈ eachOf (w.waitingPairs settings)) :
    id ∈ w.cast.ids :=
  mem_ids_of_mem_eachOf (fun _ hp => (mem_waitingPairs.1 hp).2) hid

/-- Only registered sprites are struck. -/
theorem mem_ids_of_mem_struck {d : Deed} (hid : id ∈ w.struck settings now d) :
    id ∈ w.cast.ids := by
  cases d with
  | answer c =>
    cases c with
    | checkAll => exact mem_ids_of_mem_touching hid
    | drainChecks => exact mem_ids_of_mem_waiting hid
    | _ => cases hid
  | drain r => exact mem_ids_of_mem_waiting hid
  | execute r b =>
    simp only [struck] at hid
    split at hid
    · rename_i m hm
      split at hid
      · have hredrawn := (apply_redraws settings now w m b.command).ids_eq
        exact hredrawn ▸ mem_ids_of_mem_touching hid
      · cases hid
    · cases hid
  | _ => cases hid

theorem isLit_strike (settings : Settings) (now : Nat) (w : World) (i : SpriteId) :
    (w.strike settings now i).1.isLit id = true
      ↔ (id = i ∧ i ∈ w.cast.ids) ∨ w.isLit id = true := by
  rcases hm : w.cast.find? i with _ | m
  · have hi := Cast.not_mem_ids_of_find? hm
    rw [strike, hm]
    simp [hi]
  · have hi := Cast.mem_ids_of_find? hm
    have hslots := slots_strike settings now hm
    by_cases hid : id = i
    · subst hid
      rw [isLit, hslots, Function.update_self]
      simp [hi]
    · rw [isLit_of_slots hslots fun he => hid (Expiry.highlight.inj he).symm]
      simp [hid]

theorem isLit_strikeAll (settings : Settings) (now : Nat) : ∀ (ids : List SpriteId) (w : World),
    (strikeAll settings now ids w).1.isLit id = true
      ↔ (id ∈ ids ∧ id ∈ w.cast.ids) ∨ w.isLit id = true
  | [], _ => by simp [strikeAll]
  | i :: ids, w => by
    have hids := (strike_redraws settings now w i).ids_eq
    have hrest := isLit_strikeAll settings now ids (w.strike settings now i).1
    simp only [strikeAll]
    rw [hrest, isLit_strike, hids, List.mem_cons]
    constructor
    · rintro (⟨hid, hmem⟩ | ⟨rfl, hmem⟩ | hlit)
      · exact .inl ⟨.inr hid, hmem⟩
      · exact .inl ⟨.inl rfl, hmem⟩
      · exact .inr hlit
    · rintro (⟨rfl | hid, hmem⟩ | hlit)
      · exact .inr (.inl ⟨rfl, hmem⟩)
      · exact .inl ⟨hid, hmem⟩
      · exact .inr (.inr hlit)

theorem isLit_scan (settings : Settings) (now : Nat) (w : World) (id : SpriteId) :
    (w.scan settings now).1.isLit id = true
      ↔ id ∈ eachOf (w.touchingPairs settings) ∨ w.isLit id = true := by
  refine (isLit_strikeAll settings now (eachOf (w.touchingPairs settings)) w).trans ?_
  rw [and_iff_left_of_imp mem_ids_of_mem_touching]

theorem isLit_drain (settings : Settings) (now : Nat) (w : World) (id : SpriteId) :
    (w.drain settings now).1.isLit id = true
      ↔ id ∈ eachOf (w.waitingPairs settings) ∨ w.isLit id = true := by
  refine (isLit_strikeAll settings now (eachOf (w.waitingPairs settings))
    { w with checks := .empty }).trans ?_
  exact (or_congr_left (and_iff_left_of_imp mem_ids_of_mem_waiting))

theorem isLit_apply (settings : Settings) (now : Nat) (hm : w.cast.find? m.id = some m)
    (c : Command) (id : SpriteId) :
    (w.apply settings now m c).isLit id = w.isLit id := by
  have hspeak : ∀ text secs,
      (w.showMessage settings now m text secs).isLit id = w.isLit id := fun _ _ =>
    isLit_of_slots (slots_showMessage settings now hm _ _) nofun
  cases c with
  | move steps =>
    have hwalk : (w.cast.update m.id (·.walk steps)).highlight? = w.cast.highlight? := by
      refine Cast.highlight?_update_of_same fun g => ?_
      unfold Figure.walk
      split <;> rfl
    simp only [apply]
    split <;> exact isLit_congr hwalk id
  | turn degrees =>
    have hturn : (w.cast.update m.id (·.turn degrees)).highlight? = w.cast.highlight? :=
      Cast.highlight?_update_of_same fun g => rfl
    exact isLit_congr hturn id
  | goTo x y =>
    have hgoTo : (w.cast.update m.id (·.goTo x y)).highlight? = w.cast.highlight? :=
      Cast.highlight?_update_of_same fun g => rfl
    exact isLit_congr hgoTo id
  | say text secs => exact hspeak text secs
  | think text secs => exact hspeak text secs
  | loop times => rfl
  | unknown name value => rfl

theorem isLit_execute (settings : Settings) (now : Nat) (hm : w.cast.find? m.id = some m)
    (c : Command) (id : SpriteId) : (w.execute settings now m c).1.isLit id = true
      ↔ (scansAfter m c = true ∧ id ∈ eachOf ((w.apply settings now m c).touchingPairs settings))
        ∨ w.isLit id = true := by
  have happly := isLit_apply settings now hm c id
  unfold execute
  dsimp only
  split
  · rename_i hs
    have hscan := isLit_scan settings now (w.apply settings now m c) id
    rw [happly] at hscan
    simp only [hs, true_and]
    exact hscan
  · rename_i hs
    simp [hs, happly]

/-! ## What a deed does to a highlight -/

/-- A deed is the alarm that ends the highlight of a sprite. -/
def Dims (w : World) (id : SpriteId) (d : Deed) : Prop :=
  ∃ k, d = .ring k (.highlight id) ∧ w.slots (.highlight id) = some k

theorem isLit_unregister (w : World) (id : SpriteId) :
    (w.perform settings now (.answer (.unregister id))).1.isLit id = false := by
  show ((w.unregister id).1.slots (.highlight id)).isSome = false
  rw [slots_unregister]
  simp [Expiry.sprite]

theorem Dims.isLit {d : Deed} (h : w.Dims id d) : w.isLit id = true := by
  obtain ⟨k, -, hk⟩ := h
  rw [World.isLit, hk]
  rfl

theorem Dims.isLit_perform {d : Deed} (h : w.Dims id d) :
    (w.perform settings now d).1.isLit id = false := by
  obtain ⟨k, rfl, hk⟩ := h
  show ((w.ring k (.highlight id)).1.slots (.highlight id)).isSome = false
  rw [(ring_held hk).2, Function.update_self]
  rfl

theorem isLit_iff_of_spared {d : Deed} (hs : w.struck settings now d = [])
    (hl : w'.isLit id = w.isLit id) :
    w'.isLit id = true ↔ id ∈ w.struck settings now d ∨ w.isLit id = true := by
  rw [hs, hl]
  simp

theorem isLit_reply (c : Call) (h : c ≠ .unregister id) :
    (w.reply settings now c).world.isLit id = true
      ↔ id ∈ w.struck settings now (.answer c) ∨ w.isLit id = true := by
  cases c with
  | register i position script target =>
    exact isLit_iff_of_spared rfl (isLit_congr (Cast.highlight?_register target position script) id)
  | unregister i =>
    refine isLit_iff_of_spared rfl ?_
    show ((w.unregister i).1.slots (.highlight id)).isSome = _
    rw [slots_unregister]
    dsimp only
    rw [if_neg fun hid => h (congrArg Call.unregister hid.symm), isLit]
  | setPosition i position =>
    have hmoved : (w.cast.update i fun f => { f with position := position }).highlight?
        = w.cast.highlight? := Cast.highlight?_update_of_same fun g => rfl
    exact isLit_iff_of_spared rfl (isLit_congr hmoved id)
  | setScript i script =>
    exact isLit_iff_of_spared rfl (isLit_congr (Cast.highlight?_setScript script) id)
  | queueCheck i =>
    refine isLit_iff_of_spared rfl ?_
    unfold reply
    dsimp only
    split <;> rfl
  | checkAll => exact isLit_scan settings now w id
  | drainChecks => exact isLit_drain settings now w id
  | stop =>
    refine isLit_iff_of_spared rfl ?_
    show (({ w with runs := w.runs.stop } : World).hushAll.1.slots (.highlight id)).isSome = _
    rw [slots_hushAll]
    rfl
  | _ => exact isLit_iff_of_spared rfl rfl

/-- Unless it is taken out or its alarm rings, a sprite is lit after a deed if it was before or is
struck. -/
theorem isLit_perform (settings : Settings) (now : Nat) (d : Deed)
    (hu : d ≠ .answer (.unregister id)) (hd : ¬ w.Dims id d) :
    (w.perform settings now d).1.isLit id = true
      ↔ id ∈ w.struck settings now d ∨ w.isLit id = true := by
  cases d with
  | answer c => exact isLit_reply c fun hc => hu (congrArg Deed.answer hc)
  | begin run =>
    refine isLit_iff_of_spared rfl ?_
    simp only [perform]
    split <;> rfl
  | execute r b =>
    simp only [perform, struck]
    rcases hm : w.cast.find? r.id with _ | m
    · simp
    · have hid := Cast.id_of_find? hm
      have he := isLit_execute settings now (hid ▸ hm) b.command id
      refine he.trans (or_congr_left ?_)
      by_cases hs : scansAfter m b.command <;> simp [hs]
  | mark r looping =>
    have hsame := (setLooping_redraws w r.id r.generation looping).highlight?_eq fun _ _ h => h.2
    exact isLit_iff_of_spared rfl (isLit_congr hsame id)
  | drain r => exact isLit_drain settings now w id
  | ring k e =>
    refine isLit_iff_of_spared rfl ?_
    show (w.ring k e).1.isLit id = w.isLit id
    by_cases hk : w.slots e = some k
    · refine isLit_of_slots (ring_held hk).2 fun he => hd ⟨k, ?_, ?_⟩
      · rw [he]
      · rw [← he, hk]
    · rw [ring_stale hk]
  | _ => exact isLit_iff_of_spared rfl rfl

/-! ## What the host is told of it -/

theorem not_dims_of_mem_notice {i : SpriteId} {changes : List Change} {n : Notice}
    (hc : changes.contains .highlight = false) (hn : n ∈ w.notice i changes) :
    n.dims id = false := by
  unfold notice at hn
  split at hn
  · obtain rfl := List.mem_singleton.1 hn
    simp only [Notice.dims, hc, Bool.and_false, Bool.false_and]
  · cases hn

theorem not_dims_of_mem_strikeAll (settings : Settings) (now : Nat) :
    ∀ (ids : List SpriteId) {w : World} {n : Notice},
      n ∈ (strikeAll settings now ids w).2 → n.dims id = false
  | [], _, _, hn => by cases hn
  | i :: ids, w, n, hn => by
    rcases List.mem_append.1 hn with hn | hn
    · have hn : n ∈ w.struckNotice i 1 := strike_notices settings now w i ▸ hn
      unfold struckNotice at hn
      split at hn
      · obtain rfl := List.mem_singleton.1 hn
        simp [Notice.dims]
      · cases hn
    · exact not_dims_of_mem_strikeAll settings now ids hn

theorem not_dims_of_mem_execute {c : Command} {n : Notice}
    (hn : n ∈ (w.execute settings now m c).2) : n.dims id = false := by
  have hown : (changesOf c).contains .highlight = false := by cases c <;> rfl
  unfold execute at hn
  dsimp only at hn
  split at hn
  · rcases List.mem_append.1 hn with hn | hn
    · exact not_dims_of_mem_notice hown hn
    · exact not_dims_of_mem_strikeAll settings now _ hn
  · exact not_dims_of_mem_notice hown hn

theorem not_dims_of_mem_ring {k : AlarmId} {e : Expiry} {n : Notice}
    (hd : ¬ w.Dims id (.ring k e)) (hn : n ∈ (w.ring k e).2) : n.dims id = false := by
  by_cases hk : w.slots e = some k
  · cases e with
    | message i =>
      obtain ⟨m, hm, hb⟩ := slots_eq_some hk
      simp only [ring, hm, hb, if_true] at hn
      exact not_dims_of_mem_notice rfl hn
    | highlight i =>
      obtain ⟨m, hm, hb⟩ := slots_eq_some hk
      simp only [ring, hm, hb, if_true, notice] at hn
      split at hn
      · obtain rfl := List.mem_singleton.1 hn
        have hid : i ≠ id := by
          rintro rfl
          exact hd ⟨k, rfl, hk⟩
        simp [Notice.dims, hid]
      · cases hn
  · rw [ring_stale hk] at hn
    cases hn

/-- No other deed tells the host that a sprite is no longer highlighted. -/
theorem not_dims_of_mem_perform {d : Deed} {n : Notice} (hd : ¬ w.Dims id d)
    (hn : n ∈ (w.perform settings now d).2) : n.dims id = false := by
  cases d with
  | answer c =>
    cases c with
    | register | setPosition | refresh => exact not_dims_of_mem_notice rfl hn
    | unregister i =>
      simp only [perform, reply, unregister] at hn
      split at hn
      · cases hn
      · obtain rfl := List.mem_singleton.1 hn
        rfl
    | queueCheck i =>
      simp only [perform, reply] at hn
      split at hn <;> cases hn
    | checkAll | drainChecks => exact not_dims_of_mem_strikeAll settings now _ hn
    | stop =>
      obtain ⟨m, -, hn⟩ := List.mem_flatMap.1 hn
      exact not_dims_of_mem_notice rfl hn
    | _ => cases hn
  | begin run =>
    simp only [perform] at hn
    split at hn <;> cases hn
  | execute r b =>
    simp only [perform] at hn
    split at hn
    · exact not_dims_of_mem_execute hn
    · cases hn
  | drain r => exact not_dims_of_mem_strikeAll settings now _ hn
  | ring k e => exact not_dims_of_mem_ring hd hn
  | _ => cases hn

/-- The alarm of a highlight tells the host so, and nothing else. -/
theorem Dims.notices {d : Deed} (h : w.Dims id d) (settings : Settings) (now : Nat) :
    ∃ n, (w.perform settings now d).2 = [n] ∧ n.dims id = true := by
  obtain ⟨k, rfl, hk⟩ := h
  obtain ⟨m, hm, hb⟩ := slots_eq_some hk
  have hfind : (w.cast.update id (·.dim)).find? id = some { m with figure := m.figure.dim } :=
    (Cast.find?_update_self _).trans (congrArg _ hm)
  simp only [perform, ring, hm, hb, if_true, notice, updateFigure, hfind]
  exact ⟨_, rfl, by simp [Notice.dims]; rfl⟩

end World

/-! ## At once -/

namespace Moment

/-- When a deed has something to tell, the host is told the first of it before anything else
happens. -/
def Prompt (settings : Settings) : Moment → List Entry → Prop
  | _, [] => True
  | n, e :: log =>
    (∀ notice rest, (n.world.perform settings e.time e.deed).2 = notice :: rest →
        ∃ log', log = ⟨e.time, .tell notice⟩ :: log')
      ∧ Prompt settings (n.perform settings e) log

variable {settings : Settings} {now : Nat} {n : Moment} {log log' : List Entry} {s : Scene}

theorem Prompt.append (h : n.Prompt settings log)
    (h' : (n.after settings log).Prompt settings log') : n.Prompt settings (log ++ log') := by
  induction log generalizing n with
  | nil => exact h'
  | cons e log ih =>
    refine ⟨fun notice rest hn => ?_, ih h.2 h'⟩
    obtain ⟨rest', rfl⟩ := h.1 notice rest hn
    exact ⟨rest' ++ log', rfl⟩

theorem prompt_runLog (errands : List Errand) (hw : n.world = s.world) :
    n.Prompt settings (s.runLog settings now errands) := by
  fun_induction Scene.runLog settings now errands s generalizing n with
  | case1 s => trivial
  | case2 notice errands s ih =>
    refine ⟨fun _ _ h => ?_, ih hw⟩
    cases h
  | case3 c errands s reply =>
    rename_i ih
    have hreply : n.world.perform settings now (.answer c) = (reply.world, reply.notices) := by
      rw [World.perform, hw]
    refine ⟨fun notice rest hn => ?_, ih (congrArg Prod.fst hreply)⟩
    rw [show reply.notices = notice :: rest from (congrArg Prod.snd hreply).symm.trans hn,
      List.map_cons, List.cons_append, Scene.runLog]
    exact ⟨_, rfl⟩
  | case4 a errands s ih => exact ih hw

theorem prompt_log (ds : List Deed) (hw : n.world = s.world) :
    n.Prompt settings (s.log settings now ds) := by
  induction ds generalizing n s with
  | nil => trivial
  | cons d ds ih =>
    have hw' : (n.perform settings ⟨now, d⟩).world = (s.world.perform settings now d).1 := by
      rw [Moment.perform, hw]
    have hrun : (n.perform settings ⟨now, d⟩).Prompt settings (Scene.runLog settings now
        ((s.world.perform settings now d).2.map .tell)
        { s with world := (s.world.perform settings now d).1 }) := prompt_runLog _ hw'
    refine ⟨fun notice rest hn => ?_, hrun.append (ih (world_runLog _ hw'))⟩
    rw [hw] at hn
    rw [show (s.world.perform settings now d).2 = notice :: rest from hn, List.map_cons,
      Scene.runLog]
    exact ⟨_, rfl⟩

end Moment

theorem Course.prompt_run (settings : Settings) (listening : Listening) (reactions : List Reaction)
    (ms : List Move) : Moment.start.Prompt settings
      ((start listening reactions).run settings ms).chronicle :=
  (chronicle_induction (P := fun log => Moment.start.Prompt settings log) trivial
    (fun _ _ ha h => h.append (Moment.prompt_log _ ha.world)) listening reactions ms).1

end SpriteCanvas
