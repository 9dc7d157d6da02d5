import SpriteCanvas.Proofs.Settling

/-!
# Patient courses

A session settles before it lets time pass, lets no more of it pass than until something is due, and
gives the first turn to the first performer that can take one.  So whatever a session does, moves of
a course do that keep to these rules (`Session.exists_moves`).
-/

namespace SpriteCanvas

namespace Course

variable (settings : Settings)

/-- Each move is one that a rule allows where it is made. -/
def Throughout (rule : Course → Move → Prop) : Course → List Move → Prop
  | _, [] => True
  | x, m :: ms => rule x m ∧ Throughout rule (x.move settings m) ms

/-- Time passes only when nobody can take a turn, and no further than until something is due. -/
def Timely (x : Course) : Move → Prop
  | .pass duration => x.engine.turn? settings x.clock = none
      ∧ ∀ t, x.engine.nextWake? = some t → x.clock + duration ≤ t
  | _ => True

/-- A performer takes its turn only when none before it can. -/
def InTurn (x : Course) : Move → Prop
  | .performer place =>
    ∀ p ∈ x.engine.performers.take place, ¬ p.isRunnable x.clock x.engine.world
  | _ => True

/-- Time and performers wait for each other as in a session. -/
def Orderly (x : Course) (m : Move) : Prop := x.Timely settings m ∧ x.InTurn m

/-- An orderly move that nobody asked for. -/
def Own (x : Course) (m : Move) : Prop :=
  (∀ c, m ≠ .call c) ∧ m ≠ .play ∧ x.Orderly settings m

/-- The turn of the alarms if one is due, or of a performer that can take one. -/
def Turn (x : Course) : Move → Prop
  | .alarms => x.engine.alarmIsDue x.clock
  | .performer place => (x.runnable? place).isSome
  | _ => False

/-- The turn that comes next in a session. -/
def OwnTurn (x : Course) (m : Move) : Prop := x.Own settings m ∧ x.Turn m

/-- Time passes only when nobody can take a turn. -/
def Patient : Course → List Move → Prop
  | _, [] => True
  | x, m :: ms =>
    (∀ duration, m = .pass duration → x.engine.turn? settings x.clock = none)
      ∧ Patient (x.move settings m) ms

variable {settings} in
theorem Throughout.mono {rule rule' : Course → Move → Prop} (h : ∀ y m, rule y m → rule' y m) :
    ∀ {x : Course} {ms : List Move}, x.Throughout settings rule ms → x.Throughout settings rule' ms
  | _, [], _ => trivial
  | x, m :: _, hx => ⟨h x m hx.1, mono h hx.2⟩

variable {settings} in
theorem throughout_of_forall {rule : Course → Move → Prop} (h : ∀ y m, rule y m) :
    ∀ {x : Course} {ms : List Move}, x.Throughout settings rule ms
  | _, [] => trivial
  | _, _ :: _ => ⟨h _ _, throughout_of_forall h⟩

variable (x : Course)

theorem throughout_append (rule : Course → Move → Prop) (ms ns : List Move) :
    x.Throughout settings rule (ms ++ ns)
      ↔ x.Throughout settings rule ms ∧ (x.run settings ms).Throughout settings rule ns := by
  induction ms generalizing x with
  | nil => simp [Throughout, run]
  | cons m ms ih => simp only [List.cons_append, Throughout, run, ih, and_assoc]

/-- What moves under a rule keep holds after any such moves. -/
theorem Throughout.induction {rule : Course → Move → Prop} {P : Course → Prop} {x : Course}
    {ms : List Move} (hms : x.Throughout settings rule ms) (hx : P x)
    (hmove : ∀ y m, rule y m → P y → P (y.move settings m)) : P (x.run settings ms) := by
  induction ms generalizing x with
  | nil => exact hx
  | cons m ms ih => exact ih hms.2 (hmove x m hms.1 hx)

theorem patient_append (ms ns : List Move) :
    x.Patient settings (ms ++ ns)
      ↔ x.Patient settings ms ∧ (x.run settings ms).Patient settings ns := by
  induction ms generalizing x with
  | nil => simp [Patient, run]
  | cons m ms ih => simp only [List.cons_append, Patient, run, ih, and_assoc]

/-- Some moves under a rule lead to an engine at a time. -/
def Leads (rule : Course → Move → Prop) (now : Nat) (engine : Show) : Prop :=
  ∃ ms, x.Throughout settings rule ms ∧ (x.run settings ms).clock = now
    ∧ (x.run settings ms).engine = engine

variable {settings x} {rule : Course → Move → Prop} {now : Nat} {s s' : Show}

theorem Leads.refl (hc : x.clock = now) (he : x.engine = s) : x.Leads settings rule now s :=
  ⟨[], trivial, hc, he⟩

theorem leads_of_move {m : Move} (hm : rule x m) :
    x.Leads settings rule (x.move settings m).clock (x.next settings m) :=
  ⟨[m], ⟨hm, trivial⟩, rfl, rfl⟩

theorem Leads.mono {rule' : Course → Move → Prop} (h : x.Leads settings rule now s)
    (hrule : ∀ y m, rule y m → rule' y m) : x.Leads settings rule' now s :=
  let ⟨ms, hms, h⟩ := h
  ⟨ms, hms.mono hrule, h⟩

theorem Leads.orderly (h : x.Leads settings (Own settings) now s) :
    x.Leads settings (Orderly settings) now s :=
  h.mono fun _ _ h => h.2.2

theorem Leads.trans {now' : Nat} (h : x.Leads settings rule now s)
    (h' : ∀ y : Course, y.clock = now → y.engine = s → y.Leads settings rule now' s') :
    x.Leads settings rule now' s' := by
  obtain ⟨ms, hp, hc, he⟩ := h
  obtain ⟨ns, hp', h'⟩ := h' _ hc he
  exact ⟨ms ++ ns, (throughout_append settings x _ ms ns).2 ⟨hp, hp'⟩, by rwa [run_append]⟩

/-- Where moves lead, what they keep still holds. -/
theorem Leads.exists_kept {P : Course → Prop} (h : x.Leads settings rule now s) (hx : P x)
    (hmove : ∀ y m, rule y m → P y → P (y.move settings m)) :
    ∃ y, P y ∧ y.clock = now ∧ y.engine = s :=
  let ⟨_, hms, h⟩ := h
  ⟨_, hms.induction settings hx hmove, h⟩

/-! ## Turns and time -/

theorem leads_of_performerTurn {before after : List Performer} {p : Performer}
    (hps : x.engine.performers = before.reverse ++ p :: after)
    (hr : p.isRunnable x.clock x.engine.world)
    (hfirst : ∀ q ∈ before, ¬ q.isRunnable x.clock x.engine.world) :
    x.Leads settings (OwnTurn settings) x.clock
      (Show.performerTurn settings x.clock before p after x.engine.scene) := by
  have hlen : before.reverse.length = before.length := List.length_reverse
  have hp : x.runnable? before.length = some p := by
    simp only [runnable?, hps]
    rw [List.getElem?_append_right (Nat.le_of_eq hlen)]
    simpa [Show.world] using hr
  have ha : x.around before.length = (before, after) := by
    simp only [around, hps]
    rw [← hlen, List.take_left, List.drop_append]
    simp
  have hturn : x.InTurn (.performer before.length) := by
    simp only [InTurn, hps, ← hlen, List.take_left]
    exact fun q hq => hfirst q (List.mem_reverse.1 hq)
  have hl : x.Leads settings (OwnTurn settings) _ _ :=
    leads_of_move (m := .performer before.length)
      ⟨⟨fun _ => Move.noConfusion, Move.noConfusion, trivial, hturn⟩, by rw [Turn, hp]; rfl⟩
  simpa only [move, next, hp, ha] using hl

theorem leads_by_turn (h : x.engine.turn? settings x.clock = some s) :
    x.Leads settings (OwnTurn settings) x.clock s := by
  rcases Show.turn?_cases h with ⟨hdue, rfl⟩ | ⟨-, before, p, after, hps, hr, hfirst, rfl⟩
  · exact leads_of_move (x := x) (m := .alarms)
      ⟨⟨fun _ => Move.noConfusion, Move.noConfusion, trivial, trivial⟩, hdue⟩
  · exact leads_of_performerTurn hps hr hfirst

theorem leads_of_turn? (h : x.engine.turn? settings x.clock = some s) :
    x.Leads settings (Own settings) x.clock s :=
  (leads_by_turn h).mono fun _ _ h => h.1

theorem leads_settleWithin (n : Nat) (hc : x.clock = now) (he : x.engine = s) :
    x.Leads settings (OwnTurn settings) now (s.settleWithin settings now n) := by
  induction n generalizing x s with
  | zero => exact .refl hc he
  | succ n ih =>
    subst hc he
    simp only [Show.settleWithin]
    split
    · rename_i s' h
      exact (leads_by_turn h).trans fun y hc he => ih hc he
    · exact .refl rfl rfl

/-- Settling is taking turns. -/
theorem leads_settle_by_turns (hc : x.clock = now) (he : x.engine = s) :
    x.Leads settings (OwnTurn settings) now (s.settle settings now) :=
  leads_settleWithin _ hc he

theorem leads_settle (hc : x.clock = now) (he : x.engine = s) :
    x.Leads settings (Own settings) now (s.settle settings now) :=
  (leads_settle_by_turns hc he).mono fun _ _ h => h.1

/-- Time passes in a settled engine until something is due. -/
theorem leads_pass {t : Nat} (hc : x.clock = now) (he : x.engine = s)
    (hs : s.turn? settings now = none) (ht : now ≤ t)
    (hdue : ∀ t', s.nextWake? = some t' → t ≤ t') : x.Leads settings (Own settings) t s := by
  subst hc he
  have heq : x.clock + (t - x.clock) = t := Nat.add_sub_of_le ht
  refine ⟨[.pass (t - x.clock)], ⟨⟨fun _ => Move.noConfusion, Move.noConfusion,
    ⟨hs, fun t' ht' => ?_⟩, trivial⟩, trivial⟩, heq, rfl⟩
  rw [heq]
  exact hdue t' ht'

theorem leads_passUntil (done : Show → Bool) (limit : Nat) (hc : x.clock = now)
    (he : x.engine = s) (hs : s.turn? settings now = none) (hl : now ≤ limit) :
    x.Leads settings (Own settings) (s.passUntil settings done limit now).1
      (s.passUntil settings done limit now).2 := by
  fun_induction Show.passUntil settings done limit now s generalizing x with
  | case1 now s hd => exact .refl hc he
  | case2 now s hd t ht h ih =>
    have hdue : ∀ t', s.nextWake? = some t' → t ≤ t' := fun t' ht' =>
      Nat.le_of_eq (Option.some.inj (ht.symm.trans ht'))
    refine (leads_pass hc he hs (Nat.le_of_lt h.1) hdue).trans fun y hc he => ?_
    exact (leads_settle hc he).trans fun z hc he =>
      ih hc he (Show.turn?_settle settings t s) h.2
  | case3 now s hd t ht h =>
    refine leads_pass hc he hs hl fun t' ht' => ?_
    obtain rfl := Option.some.inj (ht.symm.trans ht')
    have hlt := Show.lt_of_nextWake? hs ht
    omega
  | case4 now s hd ht => exact leads_pass hc he hs hl fun t' ht' => nomatch ht.symm.trans ht'

/-- As long as the end has not come, something is due before a time that is no later than the limit;
so the end comes by then. -/
theorem exists_done {P : Course → Prop} (done : Show → Bool) {e limit : Nat}
    (hkeep : ∀ {y : Course} {t : Nat} {s' : Show}, P y → y.Leads settings (Own settings) t s' →
      ∃ z, P z ∧ z.clock = t ∧ z.engine = s')
    (hwake : ∀ y : Course, P y → y.engine.turn? settings y.clock = none → ¬ done y.engine →
      ∃ t ≤ e, y.engine.nextWake? = some t)
    (hlimit : e ≤ limit) (hx : P x) (hc : x.clock = now) (he : x.engine = s)
    (hs : s.turn? settings now = none) (hnow : now ≤ e) :
    ∃ y, P y ∧ y.clock = (s.passUntil settings done limit now).1
      ∧ y.engine = (s.passUntil settings done limit now).2
      ∧ y.engine.turn? settings y.clock = none ∧ y.clock ≤ e ∧ done y.engine := by
  fun_induction Show.passUntil settings done limit now s generalizing x with
  | case1 now s hd =>
    subst hc he
    exact ⟨x, hx, rfl, rfl, hs, hnow, hd⟩
  | case2 now s hd t ht hle ih =>
    subst hc he
    obtain ⟨t', hte, hnext⟩ := hwake x hx hs hd
    obtain rfl := Option.some.inj (ht.symm.trans hnext)
    have hdue : ∀ t', x.engine.nextWake? = some t' → t ≤ t' := fun t' ht' =>
      Nat.le_of_eq (Option.some.inj (ht.symm.trans ht'))
    obtain ⟨z, hz, hzc, hze⟩ := hkeep hx
      ((leads_pass rfl rfl hs (Nat.le_of_lt hle.1) hdue).trans fun _ hc he => leads_settle hc he)
    exact ih hz hzc hze (Show.turn?_settle settings t x.engine) hte
  | case3 now s hd t ht hle =>
    subst hc he
    obtain ⟨t', hte, hnext⟩ := hwake x hx hs hd
    obtain rfl := Option.some.inj (ht.symm.trans hnext)
    exact absurd ⟨Show.lt_of_nextWake? hs ht, Nat.le_trans hte hlimit⟩ hle
  | case4 now s hd ht =>
    subst hc he
    obtain ⟨t', -, hnext⟩ := hwake x hx hs hd
    cases ht.symm.trans hnext

theorem leads_advance (duration : Nat) (hc : x.clock = now) (he : x.engine = s) :
    x.Leads settings (Own settings) (s.advance settings now duration).1
      (s.advance settings now duration).2 :=
  (leads_settle hc he).trans fun _ hc he =>
    leads_passUntil _ _ hc he (Show.turn?_settle settings now s) (Nat.le_add_right now duration)

theorem leads_advanceToEnd (run : RunId) (hc : x.clock = now) (he : x.engine = s) :
    x.Leads settings (Own settings) (s.advanceToEnd settings now run).1
      (s.advanceToEnd settings now run).2 :=
  (leads_settle hc he).trans fun _ hc he =>
    leads_passUntil _ _ hc he (Show.turn?_settle settings now s) (Show.le_horizon run)

end Course

namespace Session

/-- A session that stands where a course stands. -/
def At (s : Session) (x : Course) : Prop := x.clock = s.clock ∧ x.engine = s.engine

/-- Moves from where a session stands lead to where another one stands. -/
def Reaches (s s' : Session) : Prop :=
  s'.settings = s.settings
    ∧ ∀ x, s.At x → x.Leads s.settings (Course.Orderly s.settings) s'.clock s'.engine

theorem Reaches.refl (s : Session) : s.Reaches s := ⟨rfl, fun _ h => .refl h.1 h.2⟩

theorem Reaches.trans {s₁ s₂ s₃ : Session} (h : s₁.Reaches s₂) (h' : s₂.Reaches s₃) :
    s₁.Reaches s₃ :=
  ⟨h'.1.trans h.1, fun x hx => (h.2 x hx).trans fun y hc he => h.1 ▸ h'.2 y ⟨hc, he⟩⟩

variable (s : Session)

theorem reaches_request : s.Reaches s.request.2 := by
  rcases h : s.engine.play? with _ | ⟨run, engine⟩
  · rw [request, h]
    exact ⟨rfl, fun x hx => .refl hx.1 hx.2⟩
  · rw [request, h]
    refine ⟨rfl, fun x hx => ⟨[.play], ⟨⟨trivial, trivial⟩, trivial⟩, hx.1, ?_⟩⟩
    simp only [Course.run, Course.move, Course.next, hx.2, h]

theorem reaches_act (a : Action) : s.Reaches (s.act a).2 := by
  cases a with
  | call c =>
    refine ⟨rfl, fun x hx => ⟨[.call c], ⟨⟨trivial, trivial⟩, trivial⟩, hx.1, ?_⟩⟩
    simp only [Course.run, Course.move, Course.next, hx.1, hx.2]
    rfl
  | spawnPlay => exact reaches_request s
  | finished n => exact .refl s

theorem reaches_actAll (as : List Action) : s.Reaches (actAll as s).2 := by
  induction as generalizing s with
  | nil => exact .refl s
  | cons a as ih => exact (reaches_act s a).trans (ih _)

theorem reaches_settle : s.Reaches s.settle :=
  ⟨rfl, fun _ hx => (Course.leads_settle hx.1 hx.2).orderly⟩

theorem reaches_await (p : Play) : s.Reaches (s.await p).2 := by
  cases p with
  | refused => exact reaches_settle s
  | run run => exact ⟨rfl, fun _ hx => (Course.leads_advanceToEnd run hx.1 hx.2).orderly⟩

theorem reaches_take (st : Step) : s.Reaches (s.take st).2 := by
  cases st with
  | action a => exact reaches_act s a
  | join n =>
    simp only [take]
    split
    · exact reaches_await s _
    · exact .refl s
  | play => exact (reaches_request s).trans (reaches_await _ _)
  | advance duration => exact ⟨rfl, fun _ hx => (Course.leads_advance duration hx.1 hx.2).orderly⟩
  | atomic actions => exact reaches_actAll s actions

theorem reaches_step (st : Step) : s.Reaches (s.step st).2 :=
  (reaches_take s st).trans (reaches_settle _)

theorem reaches_stepAll (steps : List Step) : s.Reaches (s.stepAll steps) := by
  induction steps generalizing s with
  | nil => exact .refl s
  | cons st steps ih => exact (reaches_step s st).trans (ih _)

/-- Whatever a session does, orderly moves of a course do. -/
theorem exists_moves (settings : Settings) (listening : Listening) (reactions : List Reaction)
    (steps : List Step) : ∃ ms,
      (Course.start listening reactions).Throughout settings (Course.Orderly settings) ms
        ∧ ((Course.start listening reactions).run settings ms).clock
          = ((new settings listening reactions).stepAll steps).clock
        ∧ ((Course.start listening reactions).run settings ms).engine
          = ((new settings listening reactions).stepAll steps).engine :=
  (reaches_stepAll (new settings listening reactions) steps).2 _ ⟨rfl, rfl⟩

/-- And they come to where nobody can take a turn. -/
theorem exists_settled_moves (settings : Settings) (listening : Listening)
    (reactions : List Reaction) (steps : List Step) : ∃ ms,
      (Course.start listening reactions).Throughout settings (Course.Orderly settings) ms
        ∧ ((Course.start listening reactions).run settings ms).clock
          = ((new settings listening reactions).stepAll steps).clock
        ∧ ((Course.start listening reactions).run settings ms).engine
          = ((new settings listening reactions).stepAll steps).engine
        ∧ ((Course.start listening reactions).run settings ms).engine.turn? settings
          ((Course.start listening reactions).run settings ms).clock = none := by
  obtain ⟨ms, hms, hclock, hengine⟩ := exists_moves settings listening reactions steps
  have hs := turn?_stepAll settings listening reactions steps
  rw [(reaches_stepAll (new settings listening reactions) steps).1] at hs
  refine ⟨ms, hms, hclock, hengine, ?_⟩
  rw [hclock, hengine]
  exact hs

end Session

end SpriteCanvas
