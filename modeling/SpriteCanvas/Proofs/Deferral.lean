import SpriteCanvas.Proofs.Draining
import SpriteCanvas.Proofs.Pacing

/-!
# No check is lost or made twice

A check that was accepted waits until it is made or its sprite is taken out, whatever else happens.
A part that moves its sprite in its loop has the waiting checks made before it executes another
block, and by then the check of its sprite has been made, by itself or by somebody who came before
(`Course.CheckLaw.checked`).  So it is wherever any moves come to (`Course.checks_accounted`).
-/

namespace SpriteCanvas

namespace World

variable {settings : Settings} {now : Nat} {w : World} {d : Deed} {id : SpriteId}

/-- A deed checks a sprite against all others: the sprite is served, all that are near it by then
are found, and what the deed does is to strike the pairs that are found. -/
structure Checks (settings : Settings) (now : Nat) (w : World) (d : Deed) (id : SpriteId) :
    Prop where
  served : .served id ∈ w.dealings d
  found : ∀ other, (id, other) ∈ w.waitingPairs settings
    ↔ other ∈ w.cast.near settings.detector id
  struck : w.perform settings now d
    = strikePairs settings now (w.waitingPairs settings) { w with checks := .empty }

theorem checks_of_drains (hd : d.Drains) (hid : id ∈ w.checks.waiting) :
    w.Checks settings now d id := by
  have hfound : ∀ other, (id, other) ∈ w.waitingPairs settings
      ↔ other ∈ w.cast.near settings.detector id := fun other =>
    mem_waitingPairs.trans (and_iff_right hid)
  have hserved : Dealing.served id ∈ w.checks.waiting.map .served := List.mem_map_of_mem hid
  cases d with
  | answer c =>
    cases c with
    | drainChecks => exact ⟨hserved, hfound, rfl⟩
    | _ => exact hd.elim
  | drain r => exact ⟨hserved, hfound, rfl⟩
  | _ => exact hd.elim

end World

namespace Course

/-- What a chronicle makes of the checks that are asked for.  `inTurn` says that turns go to the
first performer that can take one. -/
structure CheckLaw (settings : Settings) (inTurn : Prop) (x : Course) : Prop where
  /-- The chronicle leads to the engine. -/
  engine : x.worldAt settings x.chronicle.length = x.engine.world
  /-- At any time those who wait are different from each other and registered. -/
  waiting : ∀ n, (x.worldAt settings n).checks.waiting.Nodup ∧ (x.worldAt settings n).Enrolled
  /-- Whatever happens does to the queue what it deals. -/
  dealt : ∀ (pre : List Entry) (e : Entry) (post : List Entry), x.chronicle = pre ++ e :: post →
    (Moment.start.after settings pre).world.checks.Deals
      ((Moment.start.after settings pre).world.dealings e.deed)
      (Moment.start.after settings (pre ++ [e])).world.checks
  /-- Each check that was accepted is made once, or withdrawn, or still waits. -/
  ledger : ∀ n, CheckQueue.Ledger (Moment.start.dealings settings (x.chronicle.take n))
    (x.worldAt settings n).checks
  /-- Who is served is checked, and who is withdrawn is taken out by a call. -/
  served : ∀ (pre : List Entry) (e : Entry) (post : List Entry) (id : SpriteId),
    x.chronicle = pre ++ e :: post →
    .served id ∈ (Moment.start.after settings pre).world.dealings e.deed →
    (Moment.start.after settings pre).world.Checks settings e.time e.deed id
  withdrawn : ∀ (pre : List Entry) (e : Entry) (post : List Entry) (id : SpriteId),
    x.chronicle = pre ++ e :: post →
    .withdrawn id ∈ (Moment.start.after settings pre).world.dealings e.deed →
    e.deed = .answer (.unregister id)
  /-- Nobody stops waiting but to be checked or to be taken out. -/
  ended : ∀ (pre : List Entry) (e : Entry) (post : List Entry) (id : SpriteId),
    x.chronicle = pre ++ e :: post →
    id ∈ (Moment.start.after settings pre).world.checks.waiting →
    id ∉ (Moment.start.after settings (pre ++ [e])).world.checks.waiting →
    (Moment.start.after settings pre).world.Checks settings e.time e.deed id
      ∨ e.deed = .answer (.unregister id)
  /-- A part moves its sprite in its loop, and the sprite is marked.  Unless the run is stopped or
  the sprite taken out meanwhile, the next thing that the part does, when the step delay is over,
  is to have the checks made, and by then somebody has checked the sprite since. -/
  checked : ∀ (pre : List Entry) (t : Nat) (r : Role) (b : Block) (steps : Float)
    (delay : List Entry) (e : Entry) (rest : List Entry),
    x.chronicle = pre ++ ⟨t, .execute r b⟩ :: (delay ++ e :: rest) →
    b.command = .move steps → (∃ t', ⟨t', .mark r true⟩ ∈ pre) →
    (inTurn ∨ ∀ m, (Moment.start.after settings pre).world.cast.find? r.id = some m →
      m.figure.looping = true) →
    (∀ e' ∈ delay, e'.deed.role? ≠ some r) → e.deed.role? = some r →
    (∀ e' ∈ delay, e'.deed ≠ .answer .stop ∧ e'.deed ≠ .answer (.unregister r.id)) →
    e.deed = .drain r ∧ t + settings.stepDelay ≤ e.time
      ∧ ∃ before e' after, delay ++ [e] = before ++ e' :: after
        ∧ (Moment.start.after settings (pre ++ ⟨t, .execute r b⟩ :: before)).world.Checks settings
          e'.time e'.deed r.id
  /-- A part moves its sprite, and the sprite is not marked.  Then all pairs are checked at once. -/
  scanned : ∀ (pre : List Entry) (t : Nat) (r : Role) (b : Block) (steps : Float) (m : Member)
    (post : List Entry), x.chronicle = pre ++ ⟨t, .execute r b⟩ :: post →
    b.command = .move steps → (Moment.start.after settings pre).world.cast.find? r.id = some m →
    m.figure.looping = false →
    ((Moment.start.after settings pre).world.perform settings t (.execute r b)).1
      = (((Moment.start.after settings pre).world.updateFigure m.id (·.walk steps)).reply settings t
        .checkAll).world
  /-- In a settled engine a part has gone on when the step delay is over. -/
  goesOn : x.engine.turn? settings x.clock = none → ∀ (pre : List Entry) (t : Nat)
    (r : Role) (b : Block) (post : List Entry), x.chronicle = pre ++ ⟨t, .execute r b⟩ :: post →
    (∃ t', ⟨t', .mark r true⟩ ∈ pre) → t + settings.stepDelay ≤ x.clock →
    ∃ e ∈ post, e.deed.role? = some r

end Course

namespace Course

variable {settings : Settings} {inTurn : Prop} {listening : Listening} {reactions : List Reaction}
  {ms : List Move} {x : Course} {r : Role} {b : Block} {t : Nat}
  {pre delay rest post : List Entry} {e : Entry}

/-- When the delay after a block is over, the part goes on by having the checks made. -/
theorem drains_of_delay (hpaced : x.Paced settings inTurn)
    (hx : x.chronicle = pre ++ ⟨t, .execute r b⟩ :: (delay ++ e :: rest))
    (hmark : ∃ t', ⟨t', .mark r true⟩ ∈ pre) (hdelay : ∀ e' ∈ delay, e'.deed.role? ≠ some r)
    (he : e.deed.role? = some r) (hstop : ∀ e' ∈ delay, e'.deed ≠ .answer .stop) :
    e.deed = .drain r ∧ t + settings.stepDelay ≤ e.time := by
  obtain ⟨pace, hp, -⟩ := hpaced r
  rw [hx] at hp
  obtain ⟨hs, -, hrests⟩ := hp.rests hmark
  obtain ⟨pace', hbeat, -⟩ := hrests.beat hdelay he
  -- The run goes on as it did at the block, so the part has no reason to leave.
  have hplayed : ∀ e' ∈ (⟨t, .execute r b⟩ : Entry) :: delay, e'.deed ≠ .answer .stop :=
    List.forall_mem_cons.2 ⟨nofun, hstop⟩
  have hstopped := Moment.stopped_after settings hplayed (Moment.start.after settings pre)
  rw [← hstopped] at hs
  generalize e.deed = d at hbeat
  cases hbeat with
  | wake _ ht => exact ⟨rfl, ht⟩
  | stop hs' => exact absurd hs' hs

/-- A part that moves its marked sprite in its loop finds it checked when it goes on. -/
theorem checked_of_delay {steps : Float} (hlaw : Moment.start.Lawful settings x.chronicle)
    (hpaced : x.Paced settings inTurn)
    (hx : x.chronicle = pre ++ ⟨t, .execute r b⟩ :: (delay ++ e :: rest))
    (hb : b.command = .move steps) (hmark : ∃ t', ⟨t', .mark r true⟩ ∈ pre)
    (hlooping : inTurn ∨ ∀ m, (Moment.start.after settings pre).world.cast.find? r.id = some m →
      m.figure.looping = true)
    (he : e.deed = .drain r) (hu : ∀ e' ∈ delay, e'.deed ≠ .answer (.unregister r.id)) :
    ∃ before e' after, delay ++ [e] = before ++ e' :: after
      ∧ (Moment.start.after settings (pre ++ ⟨t, .execute r b⟩ :: before)).world.Checks settings
        e'.time e'.deed r.id := by
  obtain ⟨pace, hp, -⟩ := hpaced r
  rw [hx] at hp hlaw
  obtain ⟨-, hmarked, -⟩ := hp.rests hmark
  obtain ⟨-, -, ⟨-, hcur, -⟩, -⟩ := (Moment.lawful_append settings _ _ _).1 hlaw
  obtain ⟨m, hm⟩ := Cast.find?_of_isCurrent hcur
  have hl : m.figure.looping = true := hlooping.elim (fun h => hmarked h m hm) fun h => h m hm
  have hwaits := World.waits_of_move settings t hm hl hb
  have hu : ∀ e' ∈ delay ++ [e], e'.deed ≠ .answer (.unregister r.id) := by
    refine List.forall_mem_append.2 ⟨hu, fun e' he' => ?_⟩
    rw [List.mem_singleton.1 he', he]
    exact nofun
  obtain ⟨before, e', after, hsplit, hdrains, hid⟩ := Moment.exists_drain settings
    (n := (Moment.start.after settings pre).perform settings ⟨t, .execute r b⟩) hwaits
    ⟨e, by simp, by rw [he]; trivial⟩ hu
  refine ⟨before, e', after, hsplit, World.checks_of_drains hdrains ?_⟩
  rwa [Moment.after_append]

/-- Who has executed a block in its loop and does nothing since rests. -/
theorem exists_goesOn (hpaced : x.Paced settings inTurn)
    (hs : x.engine.turn? settings x.clock = none)
    (hx : x.chronicle = pre ++ ⟨t, .execute r b⟩ :: post)
    (hmark : ∃ t', ⟨t', .mark r true⟩ ∈ pre) (ht : t + settings.stepDelay ≤ x.clock) :
    ∃ e ∈ post, e.deed.role? = some r := by
  by_contra hnone
  have hpost : ∀ e ∈ post, e.deed.role? ≠ some r := fun e he hr => hnone ⟨e, he, hr⟩
  obtain ⟨pace, hp, hstands⟩ := hpaced r
  rw [hx] at hp
  obtain ⟨-, -, hrests⟩ := hp.rests hmark
  obtain rfl := hrests.eq_of_others hpost
  -- The performer rests there, and its time has come: it could take a turn.
  rcases hstands with ⟨hq, -, hat⟩ | ⟨-, h | h⟩
  · obtain ⟨l, wake, hphase, hlt, -⟩ :=
      Show.rests_of_not_runnable (Show.not_runnable_of_turn? hs hq)
    rw [hphase] at hat
    cases hat
    exact Nat.not_lt.2 ht hlt
  · cases h
  · cases h

theorem checkLaw_run
    (hms : (start listening reactions).Throughout settings (fun y m => inTurn → y.InTurn m) ms) :
    ((start listening reactions).run settings ms).CheckLaw settings inTurn := by
  have hengine := worldAt_length settings listening reactions ms
  have hlaw := lawful_run settings listening reactions ms
  have hpaced := paced_run hms
  generalize (start listening reactions).run settings ms = x at *
  refine ⟨hengine, fun n => ⟨CheckQueue.nodup _, Moment.enrolled_after (fun _ h => by cases h) _⟩,
    ?_, fun n => (Moment.deals_after .start _).ledger, ?_, ?_, ?_, ?_, ?_, ?_⟩
  · rintro pre e post -
    rw [Moment.after_append]
    exact World.deals_perform settings e.time _ e.deed
  · rintro pre e post id - hserved
    have hcause := World.cause_of_mem_dealings hserved
    exact World.checks_of_drains hcause.1 hcause.2
  · rintro pre e post id - hwithdrawn
    exact World.cause_of_mem_dealings hwithdrawn
  · intro pre e post id _ hid hnot
    rw [Moment.after_append] at hnot
    by_cases hd : e.deed.Drains
    · exact .inl (World.checks_of_drains hd hid)
    · exact .inr (by_contra fun hu => hnot (World.waits_perform settings e.time hid hd hu))
  · intro pre t r b steps delay e rest hx hb hmark hlooping hdelay he hspared
    obtain ⟨hdrain, ht⟩ :=
      drains_of_delay hpaced hx hmark hdelay he fun e' he' => (hspared e' he').1
    exact ⟨hdrain, ht, checked_of_delay hlaw hpaced hx hb hmark hlooping hdrain fun e' he' =>
      (hspared e' he').2⟩
  · intro pre t r b steps m post _ hb hm hloop
    rw [World.perform_move settings t hm hloop hb]
  · exact fun hs pre t r b post => exists_goesOn hpaced hs

/-- Wherever any moves come to, no check is lost or made twice, and if turns go to the first
performer that can take one, every move in a loop is followed by a check.  So it is after every step
of every session. -/
theorem checks_accounted (settings : Settings) (listening : Listening) (reactions : List Reaction) :
    (∀ ms, ((start listening reactions).run settings ms).CheckLaw settings
      ((start listening reactions).Throughout settings InTurn ms))
    ∧ ∀ steps, ∃ ms, ((start listening reactions).run settings ms).clock
        = ((Session.new settings listening reactions).stepAll steps).clock
      ∧ ((start listening reactions).run settings ms).engine
        = ((Session.new settings listening reactions).stepAll steps).engine
      ∧ ((start listening reactions).run settings ms).engine.turn? settings
        ((start listening reactions).run settings ms).clock = none
      ∧ ((start listening reactions).run settings ms).CheckLaw settings True := by
  refine ⟨fun ms => checkLaw_run ?_, fun steps => ?_⟩
  · by_cases h : (start listening reactions).Throughout settings InTurn ms
    · exact h.mono fun _ _ h _ => h
    · exact throughout_of_forall fun _ _ h' => absurd h' h
  · obtain ⟨ms, hms, hclock, hengine, hs⟩ :=
      Session.exists_settled_moves settings listening reactions steps
    exact ⟨ms, hclock, hengine, hs, checkLaw_run (hms.mono fun _ _ h _ => h.2)⟩

end Course

end SpriteCanvas
