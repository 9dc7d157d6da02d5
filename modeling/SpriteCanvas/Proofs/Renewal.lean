import SpriteCanvas.Proofs.Slots

/-!
# What is given out once

Generations and alarms are numbered upwards.  A deed leaves the generation of a sprite or gives it
one that nobody had (`World.ages_perform`), and leaves what a slot holds or sets it to an alarm that
nobody set (`World.renews_perform`).
-/

namespace SpriteCanvas

/-! ## Generations -/

namespace Cast

/-- One cast can become the other: every sprite keeps its generation or has one that is given out
in between. -/
structure Ages (c c' : Cast) : Prop where
  next_le : c.nextGeneration ≤ c'.nextGeneration
  generation : ∀ id m', c'.find? id = some m' →
    (∃ m, c.find? id = some m ∧ m.generation = m'.generation)
      ∨ (c.nextGeneration ≤ m'.generation ∧ m'.generation < c'.nextGeneration)

/-- A generation that was given out, and that the sprite of a name does not have. -/
structure Past (c : Cast) (id : SpriteId) (generation : Nat) : Prop where
  lt_next : generation < c.nextGeneration
  not_current : c.isCurrent id generation = false

variable {R : Figure → Figure → Prop} {c c' : Cast} {id : SpriteId} {generation : Nat}

theorem Redraws.ages (h : c.Redraws R c') : c.Ages c' := by
  obtain ⟨f, rfl, -⟩ := h
  refine ⟨Nat.le_refl _, fun id m' hm' => .inl ?_⟩
  rw [find?_mapFigures] at hm'
  obtain ⟨m, hm, rfl⟩ := Option.map_eq_some_iff.1 hm'
  exact ⟨m, hm, rfl⟩

theorem nextGeneration_register (c : Cast) (id : SpriteId) (target : String) (position : Point)
    (script : Script) :
    (c.register id target position script).2.nextGeneration = c.nextGeneration + 1 := by
  unfold register
  split <;> rfl

theorem generation_register {target : String} {position : Point} {script : Script} {m : Member}
    (h : (c.register id target position script).2.find? id = some m) :
    m.generation = c.nextGeneration := by
  rcases hm : c.find? id with _ | n
  · rw [find?_register_of_none hm] at h
    cases h
    rfl
  · rw [find?_register_of_some hm] at h
    cases h
    rfl

theorem ages_register (c : Cast) (id : SpriteId) (target : String) (position : Point)
    (script : Script) : c.Ages (c.register id target position script).2 := by
  have hn := nextGeneration_register c id target position script
  refine ⟨hn ▸ Nat.le_succ _, fun i m' hm' => ?_⟩
  by_cases hi : i = id
  · subst hi
    rw [generation_register hm', hn]
    exact .inr ⟨Nat.le_refl _, Nat.lt_succ_self _⟩
  · rw [find?_register_of_ne hi] at hm'
    exact .inl ⟨m', hm', rfl⟩

theorem nextGeneration_setScript (c : Cast) (id : SpriteId) (script : Script) :
    (c.setScript id script).2.nextGeneration = c.nextGeneration + 1 := by
  unfold setScript
  split <;> rfl

theorem generation_setScript {script : Script} {m : Member}
    (h : (c.setScript id script).2.find? id = some m) : m.generation = c.nextGeneration := by
  rw [find?_setScript_self] at h
  obtain ⟨n, -, rfl⟩ := Option.map_eq_some_iff.1 h
  rfl

theorem ages_setScript (c : Cast) (id : SpriteId) (script : Script) :
    c.Ages (c.setScript id script).2 := by
  have hn := nextGeneration_setScript c id script
  refine ⟨hn ▸ Nat.le_succ _, fun i m' hm' => ?_⟩
  by_cases hi : i = id
  · subst hi
    rw [generation_setScript hm', hn]
    exact .inr ⟨Nat.le_refl _, Nat.lt_succ_self _⟩
  · rw [find?_setScript_of_ne hi] at hm'
    exact .inl ⟨m', hm', rfl⟩

theorem ages_remove (c : Cast) (id : SpriteId) : c.Ages (c.remove id) := by
  refine ⟨Nat.le_refl _, fun i m' hm' => .inl ⟨m', ?_, rfl⟩⟩
  rw [find?_remove] at hm'
  split at hm'
  · cases hm'
  · exact hm'

theorem not_current_of_ne (h : ∀ m, c.find? id = some m → m.generation ≠ generation) :
    c.isCurrent id generation = false := by
  rw [isCurrent]
  rcases hm : c.find? id with _ | m
  · rfl
  · exact decide_eq_false (h m hm)

theorem Past.ages (h : c.Past id generation) (hc : c.Ages c') : c'.Past id generation := by
  refine ⟨Nat.lt_of_lt_of_le h.lt_next hc.next_le, not_current_of_ne fun m' hm' heq => ?_⟩
  rcases hc.generation id m' hm' with ⟨m, hm, hg⟩ | ⟨hle, -⟩
  · have hcur : c.isCurrent id generation = true := by
      rw [isCurrent, hm]
      exact decide_eq_true (hg.trans heq)
    rw [h.not_current] at hcur
    cases hcur
  · exact Nat.lt_irrefl _ (Nat.lt_of_lt_of_le h.lt_next (heq ▸ hle))

end Cast

namespace World

variable (settings : Settings) (now : Nat) (w : World)

theorem ages_perform (d : Deed) : w.cast.Ages (w.perform settings now d).1.cast := by
  rcases hd : d.recast? with _ | i
  · exact (perform_redrawn settings now w hd).ages
  · cases d with
    | answer c =>
      cases c with
      | register id position script target =>
        exact Cast.ages_register w.cast id target position script
      | unregister id =>
        simp only [perform, reply, unregister_cast]
        exact Cast.ages_remove w.cast id
      | setScript id script => exact Cast.ages_setScript w.cast id script
      | _ => cases hd
    | _ => cases hd

variable {w} {d : Deed} {id : SpriteId} {generation : Nat}

/-- Who is recast has no generation that was given out before. -/
theorem past_of_recast (hd : d.recast? = some id) (hg : generation < w.cast.nextGeneration) :
    (w.perform settings now d).1.cast.Past id generation := by
  refine ⟨Nat.lt_of_lt_of_le hg (ages_perform settings now w d).next_le,
    Cast.not_current_of_ne fun m hm heq => ?_⟩
  have hnew : m.generation = w.cast.nextGeneration := by
    cases d with
    | answer c =>
      cases c with
      | register i position script target =>
        cases hd
        exact Cast.generation_register hm
      | unregister i =>
        cases hd
        rw [perform, reply, unregister_cast, Cast.find?_remove, if_pos rfl] at hm
        cases hm
      | setScript i script =>
        cases hd
        exact Cast.generation_setScript hm
      | _ => cases hd
    | _ => cases hd
  exact Nat.lt_irrefl _ (hnew ▸ heq ▸ hg)

end World

/-! ## Alarms -/

namespace World

/-- One world can become the other: every slot keeps its alarm, is emptied, or holds an alarm that
is set in between. -/
structure Renews (w w' : World) : Prop where
  next_le : w.alarms.next ≤ w'.alarms.next
  slots : ∀ e k, w'.slots e = some k → w.slots e = some k ∨ w.alarms.next ≤ k

variable {w w' w'' : World} {m : Member} {id : SpriteId}

theorem Renews.refl (w : World) : w.Renews w := ⟨Nat.le_refl _, fun _ _ => .inl⟩

theorem Renews.trans (h : w.Renews w') (h' : w'.Renews w'') : w.Renews w'' where
  next_le := Nat.le_trans h.next_le h'.next_le
  slots e k hk := by
    rcases h'.slots e k hk with hk | hk
    · exact h.slots e k hk
    · exact .inr (Nat.le_trans h.next_le hk)

theorem renews_of_slots (ha : w'.alarms.next = w.alarms.next)
    (hs : ∀ e k, w'.slots e = some k → w.slots e = some k) : w.Renews w' :=
  ⟨Nat.le_of_eq ha.symm, fun e k hk => .inl (hs e k hk)⟩

theorem renews_of_eq (hc : w'.cast = w.cast) (ha : w'.alarms = w.alarms) : w.Renews w' :=
  renews_of_slots (congrArg _ ha) fun e k hk => by rwa [World.slots, hc] at hk

theorem renews_of_redraws (ha : w'.alarms.next = w.alarms.next)
    (hr : w.cast.Redraws Figure.ShowsAs w'.cast) : w.Renews w' := by
  refine renews_of_slots ha fun e k hk => ?_
  rwa [World.slots, hr.bubble?_eq fun _ _ h => h.1, hr.highlight?_eq fun _ _ h => h.2] at hk

theorem renews_of_update {e : Expiry} (ha : w'.alarms.next = w.alarms.next + 1)
    (hs : w'.slots = Function.update w.slots e (some w.alarms.next)) : w.Renews w' := by
  refine ⟨ha ▸ Nat.le_succ _, fun e' k hk => ?_⟩
  rw [hs] at hk
  by_cases he : e' = e
  · subst he
    rw [Function.update_self] at hk
    exact .inr (Nat.le_of_eq (Option.some.inj hk))
  · rw [Function.update_of_ne he] at hk
    exact .inl hk

theorem next_cancel? (a : Alarms) (o : Option AlarmId) : (a.cancel? o).next = a.next := by
  cases o <;> rfl

variable (settings : Settings) (now : Nat)

theorem renews_strike (w : World) (id : SpriteId) : w.Renews (w.strike settings now id).1 := by
  rcases hm : w.cast.find? id with _ | m
  · rw [strike, hm]
    exact .refl w
  · refine renews_of_update ?_ (slots_strike settings now hm)
    simp only [strike, hm, next_cancel?]
    rfl

theorem renews_strikeAll : ∀ (ids : List SpriteId) (w : World),
    w.Renews (strikeAll settings now ids w).1
  | [], w => .refl w
  | id :: ids, w => (renews_strike settings now w id).trans (renews_strikeAll ids _)

theorem renews_drain (w : World) : w.Renews (w.drain settings now).1 := by
  have hw : w.Renews { w with checks := .empty } := renews_of_eq rfl rfl
  exact hw.trans (renews_strikeAll settings now _ _)

theorem renews_apply (hm : w.cast.find? id = some m) (c : Command) :
    w.Renews (w.apply settings now m c) := by
  obtain rfl := Cast.id_of_find? hm
  have hspeak : ∀ (text : String) (secs : Float),
      w.Renews (w.showMessage settings now m text secs) := fun text secs =>
    renews_of_update (next_cancel? _ _) (slots_showMessage settings now hm text secs)
  cases c with
  | move steps =>
    have hr : w.cast.Redraws Figure.ShowsAs (w.cast.update m.id (·.walk steps)) := by
      refine Cast.redraws_update _ Figure.ShowsAs.refl fun g => ?_
      unfold Figure.walk
      split <;> exact ⟨rfl, rfl⟩
    simp only [apply]
    split <;> exact renews_of_redraws rfl hr
  | turn degrees =>
    exact renews_of_redraws rfl (Cast.redraws_update (·.turn degrees) Figure.ShowsAs.refl
      fun g => ⟨rfl, rfl⟩)
  | goTo x y =>
    exact renews_of_redraws rfl (Cast.redraws_update (·.goTo x y) Figure.ShowsAs.refl
      fun g => ⟨rfl, rfl⟩)
  | say text secs => exact hspeak text secs
  | think text secs => exact hspeak text secs
  | loop times => exact .refl w
  | unknown name value => exact .refl w

theorem renews_execute (hm : w.cast.find? id = some m) (c : Command) :
    w.Renews (w.execute settings now m c).1 := by
  unfold execute
  dsimp only
  split
  · exact (renews_apply settings now hm c).trans (renews_strikeAll settings now _ _)
  · exact renews_apply settings now hm c

theorem renews_hushAll (w : World) : w.Renews w.hushAll.1 := by
  refine renews_of_slots ?_ fun e k hk => ?_
  · rw [alarms_hushAll, Alarms.next_cancelAll]
  · rw [slots_hushAll] at hk
    dsimp only at hk
    split at hk
    · cases hk
    · exact hk

theorem renews_unregister (w : World) (id : SpriteId) : w.Renews (w.unregister id).1 := by
  refine renews_of_slots ?_ fun e k hk => ?_
  · rw [alarms_unregister, Alarms.next_cancelAll]
  · rw [slots_unregister] at hk
    dsimp only at hk
    split at hk
    · cases hk
    · exact hk

theorem renews_ring (w : World) (alarm : AlarmId) (expiry : Expiry) :
    w.Renews (w.ring alarm expiry).1 := by
  by_cases h : w.slots expiry = some alarm
  · obtain ⟨ha, hs⟩ := ring_held h
    refine renews_of_slots (congrArg _ ha) fun e k hk => ?_
    rw [hs] at hk
    by_cases he : e = expiry
    · subst he
      rw [Function.update_self] at hk
      cases hk
    · rwa [Function.update_of_ne he] at hk
  · rw [ring_stale h]
    exact .refl w

/-- An alarm changes only the sprite that it was set for. -/
theorem find?_ring_of_ne (w : World) (alarm : AlarmId) {expiry : Expiry}
    (h : expiry.sprite ≠ id) : (w.ring alarm expiry).1.cast.find? id = w.cast.find? id := by
  unfold ring
  split
  · rfl
  · cases expiry with
    | message i =>
      dsimp only
      split
      · exact Cast.find?_update_of_ne (Ne.symm h) (·.hush)
      · rfl
    | highlight i =>
      dsimp only
      split
      · exact Cast.find?_update_of_ne (Ne.symm h) (·.dim)
      · rfl

theorem renews_reply (w : World) (c : Call) : w.Renews (w.reply settings now c).world := by
  have hcast : ∀ {c : Cast}, c.bubble? = w.cast.bubble? → c.highlight? = w.cast.highlight? →
      w.Renews { w with cast := c } := fun hb hh => by
    refine renews_of_slots rfl fun e k hk => ?_
    rwa [World.slots, hb, hh] at hk
  cases c with
  | register id position script target =>
    exact hcast (Cast.bubble?_register target position script)
      (Cast.highlight?_register target position script)
  | unregister id => exact renews_unregister w id
  | setPosition id position =>
    exact renews_of_redraws rfl (Cast.redraws_update (fun f => { f with position := position })
      Figure.ShowsAs.refl fun g => ⟨rfl, rfl⟩)
  | setScript id script =>
    exact hcast (Cast.bubble?_setScript script) (Cast.highlight?_setScript script)
  | queueCheck id =>
    unfold reply
    dsimp only
    split
    · exact renews_of_eq rfl rfl
    · exact .refl w
  | checkAll => exact renews_strikeAll settings now _ w
  | drainChecks => exact renews_drain settings now w
  | stop =>
    have hw : w.Renews { w with runs := w.runs.stop } := renews_of_eq rfl rfl
    exact hw.trans (renews_hushAll _)
  | _ => exact .refl w

theorem renews_perform (w : World) (d : Deed) : w.Renews (w.perform settings now d).1 := by
  cases d with
  | answer c => exact renews_reply settings now w c
  | begin run =>
    simp only [perform]
    split
    · exact renews_of_eq rfl rfl
    · exact .refl w
  | execute r b =>
    simp only [perform]
    split
    · rename_i m hm
      exact renews_execute settings now hm b.command
    · exact .refl w
  | mark r looping =>
    exact renews_of_redraws rfl (setLooping_redraws w r.id r.generation looping)
  | drain r => exact renews_drain settings now w
  | ring alarm expiry => exact renews_ring w alarm expiry
  | collect => exact renews_of_slots rfl fun _ _ hk => hk
  | finish run => exact renews_of_eq rfl rfl
  | _ => exact .refl w

end World

end SpriteCanvas
