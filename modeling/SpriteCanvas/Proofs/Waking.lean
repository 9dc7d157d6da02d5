import SpriteCanvas.Playback.Show

/-!
# Who is next

The next turn is the alarms' if one is due, and else that of the first performer that can take one
(`Show.turn?_cases`).  While nobody can take a turn every performer rests past the present, and the
show wakes later than now and no later than any of them (`Show.lt_of_nextWake?`,
`Show.nextWake?_le_wake`).
-/

namespace SpriteCanvas

namespace Show

variable {settings : Settings} {now : Nat} {s s' : Show} {scene : Scene} {p : Performer}

/-! ## Turns -/

theorem not_runnable_of_firstPerformerTurn? : ∀ {before after : List Performer},
    firstPerformerTurn? settings now scene before after = none →
    ∀ p ∈ after, ¬ p.isRunnable now scene.world
  | before, p :: after, h, q, hq => by
    rw [firstPerformerTurn?] at h
    split at h
    · cases h
    · rename_i hp
      rcases List.mem_cons.1 hq with rfl | hq
      · exact hp
      · exact not_runnable_of_firstPerformerTurn? h q hq

theorem first_of_firstPerformerTurn? : ∀ {before after : List Performer},
    (∀ q ∈ before, ¬ q.isRunnable now scene.world) →
    firstPerformerTurn? settings now scene before after = some s' →
    ∃ before' p after', before.reverse ++ after = before'.reverse ++ p :: after'
      ∧ p.isRunnable now scene.world ∧ (∀ q ∈ before', ¬ q.isRunnable now scene.world)
      ∧ s' = performerTurn settings now before' p after' scene
  | _, [], _, h => by cases h
  | before, p :: after, hb, h => by
    simp only [firstPerformerTurn?] at h
    split at h
    · rename_i hr
      exact ⟨before, p, after, rfl, hr, hb, (Option.some.inj h).symm⟩
    · rename_i hr
      have hb' : ∀ q ∈ p :: before, ¬ q.isRunnable now scene.world :=
        List.forall_mem_cons.2 ⟨hr, hb⟩
      obtain ⟨before', q, after', heq, h⟩ := first_of_firstPerformerTurn? hb' h
      refine ⟨before', q, after', ?_, h⟩
      rw [← heq, List.reverse_cons, List.append_assoc]
      rfl

/-- The next turn is the alarms', or that of the first performer that can take one. -/
theorem turn?_cases (h : s.turn? settings now = some s') :
    (s.alarmIsDue now = true ∧ s' = s.alarmTurn settings now)
      ∨ (s.alarmIsDue now = false ∧ ∃ before p after, s.performers = before.reverse ++ p :: after
        ∧ p.isRunnable now s.world ∧ (∀ q ∈ before, ¬ q.isRunnable now s.world)
        ∧ s' = performerTurn settings now before p after s.scene) := by
  unfold turn? at h
  split at h
  · rename_i hd
    exact .inl ⟨hd, (Option.some.inj h).symm⟩
  · rename_i hd
    exact .inr ⟨by simpa using hd, first_of_firstPerformerTurn? (List.forall_mem_nil _) h⟩

theorem alarmIsDue_of_turn? (h : s.turn? settings now = none) : s.alarmIsDue now = false := by
  unfold turn? at h
  split at h
  · cases h
  · rename_i hd
    simpa using hd

theorem not_runnable_of_turn? (h : s.turn? settings now = none) (hp : p ∈ s.performers) :
    ¬ p.isRunnable now s.world := by
  rw [turn?, alarmIsDue_of_turn? h] at h
  exact not_runnable_of_firstPerformerTurn? h p hp

/-! ## Waking -/

theorem earlier?_le {o p : Option Nat} {c : Nat} (h : o = some c ∨ p = some c) :
    ∃ d ≤ c, earlier? o p = some d := by
  rcases h with rfl | rfl
  · rcases p with _ | t
    · exact ⟨c, Nat.le_refl c, rfl⟩
    · exact ⟨min c t, Nat.min_le_left c t, rfl⟩
  · rcases o with _ | t
    · exact ⟨c, Nat.le_refl c, rfl⟩
    · exact ⟨min t c, Nat.min_le_right t c, rfl⟩

theorem of_earlier? {o p : Option Nat} {t : Nat} (h : earlier? o p = some t) :
    o = some t ∨ p = some t := by
  rcases o with _ | a <;> rcases p with _ | b
  · cases h
  · exact .inr h
  · exact .inl h
  · have h : min a b = t := Option.some.inj h
    rcases Nat.le_total a b with hab | hab
    · exact .inl (congrArg some ((Nat.min_eq_left hab).symm.trans h))
    · exact .inr (congrArg some ((Nat.min_eq_right hab).symm.trans h))

/-- The earliest of several times is not after any of them. -/
theorem foldl_earlier?_le {c : Nat} : ∀ (ps : List Performer) {o : Option Nat},
    o = some c ∨ (∃ p ∈ ps, p.wake? = some c) →
    ∃ t ≤ c, ps.foldl (fun t p => earlier? t p.wake?) o = some t
  | [], o, h => ⟨c, Nat.le_refl c, h.resolve_right fun ⟨_, hp, _⟩ => List.not_mem_nil hp⟩
  | p :: ps, o, h => by
    rw [List.foldl_cons]
    by_cases hrest : ∃ q ∈ ps, q.wake? = some c
    · exact foldl_earlier?_le ps (.inr hrest)
    · have hfirst : o = some c ∨ p.wake? = some c := by
        refine h.imp_right fun ⟨q, hq, hw⟩ => ?_
        rcases List.mem_cons.1 hq with rfl | hq
        · exact hw
        · exact absurd ⟨q, hq, hw⟩ hrest
      obtain ⟨d, hd, heq⟩ := earlier?_le hfirst
      obtain ⟨t, ht, hfold⟩ := foldl_earlier?_le ps (.inl heq)
      exact ⟨t, Nat.le_trans ht hd, hfold⟩

/-- The earliest of several times is one of them. -/
theorem of_foldl_earlier? {t : Nat} : ∀ (ps : List Performer) {o : Option Nat},
    ps.foldl (fun t p => earlier? t p.wake?) o = some t →
    o = some t ∨ ∃ p ∈ ps, p.wake? = some t
  | [], _, h => .inl h
  | p :: ps, o, h => by
    rw [List.foldl_cons] at h
    rcases of_foldl_earlier? ps h with h | ⟨q, hq, hw⟩
    · exact (of_earlier? h).imp_right fun hw => ⟨p, List.mem_cons_self, hw⟩
    · exact .inr ⟨q, List.mem_cons_of_mem p hq, hw⟩

theorem nextWake?_le_wake {l : Loop} {wake : Nat} (hp : p ∈ s.performers)
    (hphase : p.phase = .resting l wake) : ∃ t ≤ wake, s.nextWake? = some t :=
  foldl_earlier?_le s.performers (.inr ⟨p, hp, by rw [Performer.wake?, hphase]⟩)

/-- Who cannot take a turn rests past the present. -/
theorem rests_of_not_runnable {w : World} (h : ¬ p.isRunnable now w) :
    ∃ l wake, p.phase = .resting l wake ∧ now < wake ∧ ¬ p.isStopped w := by
  unfold Performer.isRunnable at h
  split at h
  · rename_i l wake hphase
    simp only [Bool.or_eq_true, decide_eq_true_eq, not_or, Nat.not_le] at h
    exact ⟨l, wake, hphase, h⟩
  · exact absurd rfl h

/-- A settled show wakes later. -/
theorem lt_of_nextWake? {t : Nat} (hs : s.turn? settings now = none)
    (hw : s.nextWake? = some t) : now < t := by
  have hd := alarmIsDue_of_turn? hs
  rcases of_foldl_earlier? _ hw with hnext | ⟨p, hp, hwake⟩
  · rw [alarmIsDue, hnext, Option.any_some, decide_eq_false_iff_not] at hd
    exact Nat.lt_of_not_le hd
  · obtain ⟨l, wake, hphase, hlt, -⟩ := rests_of_not_runnable (not_runnable_of_turn? hs hp)
    rw [Performer.wake?, hphase] at hwake
    exact Option.some.inj hwake ▸ hlt

/-! ## The horizon of a run -/

section Foldl

variable {α : Type} {f : Nat → α → Nat} (hf : ∀ t x, t ≤ f t x)

include hf

theorem le_foldl (xs : List α) (t : Nat) : t ≤ xs.foldl f t := by
  induction xs generalizing t with
  | nil => exact Nat.le_refl t
  | cons x xs ih => exact Nat.le_trans (hf t x) (ih _)

theorem le_foldl_of_mem {x : α} {n : Nat} (hn : ∀ t, n ≤ f t x) :
    ∀ {xs : List α} (t : Nat), x ∈ xs → n ≤ xs.foldl f t
  | y :: ys, t, hx => by
    rcases List.mem_cons.1 hx with rfl | hx
    · exact Nat.le_trans (hn t) (le_foldl hf ys _)
    · exact le_foldl_of_mem hn (f t y) hx

end Foldl

theorem le_horizonStep (settings : Settings) (run : RunId) (t : Nat) (p : Performer) :
    t ≤ (match p.phase with
      | .resting l wake => if p.run = run then max t (wake + l.left * settings.stepDelay) else t
      | _ => t) := by
  split
  · split
    · exact Nat.le_max_left _ _
    · exact Nat.le_refl t
  · exact Nat.le_refl t

theorem le_horizon (run : RunId) : now ≤ s.horizon settings now run :=
  le_foldl (le_horizonStep settings run) s.performers now

/-- The horizon is not before the end of anybody who rests. -/
theorem le_horizon_of_mem {l : Loop} {wake : Nat} (hp : p ∈ s.performers)
    (hphase : p.phase = .resting l wake) :
    wake + l.left * settings.stepDelay ≤ s.horizon settings now p.run := by
  refine le_foldl_of_mem (le_horizonStep settings p.run) (fun t => ?_) now hp
  rw [hphase]
  simp only [if_true]
  exact Nat.le_max_right _ _

end Show

end SpriteCanvas
