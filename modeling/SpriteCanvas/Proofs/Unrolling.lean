import SpriteCanvas.Proofs.Lawful
import SpriteCanvas.Proofs.Quiet
import SpriteCanvas.Proofs.Solo

/-!
# A performance follows its script

At every moment what a part has run and what it still has to run are together the unrolled script
with which its sprite went into the run (`Moment.Plays.after`).  So a performance is always a
prefix of that, and all of it unless the run is stopped or the sprite changed
(`Course.executed_unrolled`).  A sprite that is left alone gets to its leave in any case
(`Course.leave_of_turns`).
-/

namespace SpriteCanvas

/-- The block that a deed executes for a part. -/
def Deed.block? (r : Role) : Deed → Option Block
  | .execute r' b => if r' = r then some b else none
  | _ => none

/-- The blocks that are executed for a part. -/
def executed (r : Role) (log : List Entry) : Script := log.filterMap (·.deed.block? r)

theorem executed_append (r : Role) (log log' : List Entry) :
    executed r (log ++ log') = executed r log ++ executed r log' :=
  List.filterMap_append

theorem executed_singleton (r : Role) (e : Entry) : executed r [e] = (e.deed.block? r).toList := by
  unfold executed
  cases h : e.deed.block? r <;> simp [h]

theorem executed_cons_of_none {r : Role} {e : Entry} (h : e.deed.block? r = none)
    (log : List Entry) : executed r (e :: log) = executed r log :=
  List.filterMap_cons_none h

namespace Script

/-- The blocks before the first loop. -/
def opening (s : Script) : Script := s.takeWhile fun b => !b.command.isLoop

/-- The blocks after the first loop, but for the loops among them, as often as it says. -/
def repeated (s : Script) : Script :=
  match s.dropWhile fun b => !b.command.isLoop with
  | ⟨_, .loop times⟩ :: rest => (List.replicate times.toNat (body rest)).flatten
  | _ => []

variable {b : Block} {times : UInt32}

theorem opening_cons_of_loop (h : b.command = .loop times) (rest : Script) :
    opening (b :: rest) = [] :=
  List.takeWhile_cons_of_neg (by simp [h, Command.isLoop])

theorem repeated_cons_of_loop (h : b.command = .loop times) (rest : Script) :
    repeated (b :: rest) = (List.replicate times.toNat (body rest)).flatten := by
  obtain ⟨id, command⟩ := b
  cases h
  rfl

theorem not_isLoop (h : ∀ times, b.command ≠ .loop times) : b.command.isLoop = false := by
  refine Bool.eq_false_iff.2 fun hl => ?_
  obtain ⟨times, hl⟩ := Command.eq_loop_of_isLoop hl
  exact h times hl

theorem opening_cons_of_not_loop (h : ∀ times, b.command ≠ .loop times) (rest : Script) :
    opening (b :: rest) = b :: opening rest :=
  List.takeWhile_cons_of_pos (by simp [not_isLoop h])

theorem repeated_cons_of_not_loop (h : ∀ times, b.command ≠ .loop times) (rest : Script) :
    repeated (b :: rest) = repeated rest := by
  unfold repeated
  rw [List.dropWhile_cons_of_pos (by simp [not_isLoop h])]

theorem unrolled_eq (s : Script) : s.unrolled = s.opening ++ s.repeated := by
  induction s with
  | nil => rfl
  | cons b rest ih =>
    by_cases hb : b.command.isLoop
    · obtain ⟨times, hb⟩ := Command.eq_loop_of_isLoop hb
      rw [unrolled_cons_of_loop hb, opening_cons_of_loop hb, repeated_cons_of_loop hb,
        List.nil_append]
    · have hb : ∀ times, b.command ≠ .loop times := fun times h => hb (h ▸ rfl)
      rw [unrolled_cons_of_not_loop hb, opening_cons_of_not_loop hb, repeated_cons_of_not_loop hb,
        ih, List.cons_append]

end Script

namespace Moment

variable {settings : Settings} {m n : Moment} {r : Role} {script done : Script}
  {log : List Entry} {e : Entry}

theorem Lawful.counted (h : Lawful settings start log) :
    (start.after settings log).world.runs.Counted := by
  refine h.induction (P := fun _ n => n.world.runs.Counted) ?_ fun e _ _ n hn _ _ => ?_
  · rintro run (hr | hr) <;> cases hr
  · rw [runs_perform]
    exact hn.perform e.deed

/-- Nothing is executed for a run that has not begun. -/
theorem Lawful.executed_eq_nil (h : Lawful settings start log)
    (hr : (start.after settings log).world.runs.begun ≤ r.run) : executed r log = [] := by
  refine (h.induction (P := fun before n => n.world.runs.Counted ∧
    (n.world.runs.begun ≤ r.run → executed r before = [])) ?_ fun e _ before n hn _ ha => ?_).2 hr
  · refine ⟨?_, fun _ => rfl⟩
    rintro run (hr | hr) <;> cases hr
  · rw [runs_perform]
    refine ⟨hn.1.perform e.deed, fun hle => ?_⟩
    have hle := Nat.le_trans (RunBook.begun_le_perform n.world.runs e.deed) hle
    rw [executed_append, hn.2 hle, executed_singleton]
    cases hd : e.deed with
    | execute r' b =>
      rw [hd] at ha
      have hlt := hn.1 r'.run (.inl ha.1)
      have hne : r' ≠ r := by
        rintro rfl
        exact Nat.lt_irrefl _ (Nat.lt_of_lt_of_le hlt hle)
      rw [Deed.block?, if_neg hne]
      rfl
    | _ => rfl

/-- What a part has run, and what it still has to run while it has not left, are the script. -/
def Plays (n : Moment) (r : Role) (script done : Script) : Prop :=
  r.run < n.world.runs.begun
    ∧ ((∃ left, n.todo r = some left ∧ done ++ left = script)
      ∨ (n.todo r = none ∧ done <+: script))

theorem Plays.isPrefix (h : n.Plays r script done) : done <+: script := by
  rcases h.2 with ⟨left, -, rfl⟩ | ⟨-, hp⟩
  · exact List.prefix_append done left
  · exact hp

/-- What a deed can be for a part of a run that has begun: nothing to it, its next block, or its
leaving. -/
theorem todo_cases {d : Deed} (hr : r.run < n.world.runs.begun) (ha : n.Allows d) :
    (d.block? r = none ∧ n.todoAfter d r = n.todo r)
      ∨ (∃ b left, d.block? r = some b ∧ n.todo r = some (b :: left)
        ∧ n.todoAfter d r = some left)
      ∨ (d = .leave r ∧ n.todoAfter d r = none) := by
  cases d with
  | begin run =>
    have hne : r.run ≠ run := fun h => Nat.lt_irrefl _ (ha.2 ▸ h ▸ hr)
    exact .inl ⟨rfl, if_neg hne⟩
  | execute r' b =>
    by_cases h : r' = r
    · subst h
      obtain ⟨-, -, left, ht⟩ := ha
      refine .inr (.inl ⟨b, left, if_pos rfl, ht, ?_⟩)
      rw [todoAfter, Function.update_self, ht]
      rfl
    · exact .inl ⟨if_neg h, Function.update_of_ne (Ne.symm h) _ _⟩
  | leave r' =>
    by_cases h : r' = r
    · subst h
      exact .inr (.inr ⟨rfl, Function.update_self _ _ _⟩)
    · exact .inl ⟨rfl, Function.update_of_ne (Ne.symm h) _ _⟩
  | _ => exact .inl ⟨rfl, rfl⟩

theorem Plays.perform (h : n.Plays r script done) (ha : n.Allows e.deed) :
    (n.perform settings e).Plays r script (done ++ executed r [e]) := by
  refine ⟨?_, ?_⟩
  · rw [runs_perform]
    exact Nat.lt_of_lt_of_le h.1 (RunBook.begun_le_perform _ _)
  · rw [executed_singleton, todo_perform]
    rcases todo_cases h.1 ha with ⟨hb, ht⟩ | ⟨b, left, hb, ht, ht'⟩ | ⟨hd, ht⟩
    · rw [hb, ht, Option.toList_none, List.append_nil]
      exact h.2
    · rw [hb, ht', Option.toList_some]
      rcases h.2 with ⟨left', hl, rfl⟩ | ⟨hl, -⟩
      · cases hl.symm.trans ht
        exact .inl ⟨left, rfl, by simp⟩
      · cases hl.symm.trans ht
    · have hb : e.deed.block? r = none := by rw [hd]; rfl
      rw [ht, hb, Option.toList_none, List.append_nil]
      exact .inr ⟨rfl, h.isPrefix⟩

theorem Plays.after (h : n.Plays r script done) (hl : n.Lawful settings log) :
    (n.after settings log).Plays r script (done ++ executed r log) := by
  refine hl.induction (P := fun before n => n.Plays r script (done ++ executed r before))
    (by simpa [executed] using h) fun e _ before n hn _ ha => ?_
  rw [executed_append, ← List.append_assoc]
  exact hn.perform ha

/-- A part comes to an end by leaving only. -/
theorem Lawful.exists_leave (h : Lawful settings n log) (hr : r.run < n.world.runs.begun)
    (ht : n.todo r ≠ none) (hend : (n.after settings log).todo r = none) :
    ∃ t, ⟨t, .leave r⟩ ∈ log := by
  refine (h.induction (P := fun before n => r.run < n.world.runs.begun
    ∧ (n.todo r = none → ∃ t, ⟨t, .leave r⟩ ∈ before)) ⟨hr, fun hnone => absurd hnone ht⟩
    fun e _ before n ⟨hr, hn⟩ _ ha => ?_).2 hend
  rw [runs_perform, todo_perform]
  refine ⟨Nat.lt_of_lt_of_le hr (RunBook.begun_le_perform _ _), fun hnone => ?_⟩
  rcases todo_cases hr ha with ⟨-, ht⟩ | ⟨b, left, -, -, ht⟩ | ⟨hd, -⟩
  · obtain ⟨t, hmem⟩ := hn (ht.symm.trans hnone)
    exact ⟨t, List.mem_append_left _ hmem⟩
  · cases ht.symm.trans hnone
  · exact ⟨e.time, List.mem_append_right before (hd ▸ List.mem_singleton_self e)⟩

theorem todo_begin (settings : Settings) (run : RunId) (t : Nat) {s : Member}
    (hs : s ∈ n.world.cast.members) :
    (n.perform settings ⟨t, .begin run⟩).todo ⟨run, s.id, s.generation⟩
      = some s.script.unrolled :=
  (if_pos rfl).trans (World.score_of_mem hs run)

/-- Everybody who is registered plays in a run that begins. -/
theorem plays_begin (settings : Settings) {run : RunId} (t : Nat) {s : Member}
    (ha : n.Allows (.begin run)) (hs : s ∈ n.world.cast.members) :
    (n.perform settings ⟨t, .begin run⟩).Plays ⟨run, s.id, s.generation⟩ s.script.unrolled [] := by
  refine ⟨?_, .inl ⟨_, todo_begin settings run t hs, rfl⟩⟩
  rw [runs_perform]
  simp [RunBook.perform, RunBook.begin?, ha.1, ha.2]

end Moment

/-- Nothing befalls a part: its run is not stopped, and its sprite is not registered again, given
another script or taken out. -/
def Deed.Spares (id : SpriteId) (d : Deed) : Prop := d ≠ .answer .stop ∧ d.recast? ≠ some id

theorem Deed.spares_of_ne_answer {d : Deed} (h : ∀ c, d ≠ .answer c) (id : SpriteId) :
    d.Spares id := by
  refine ⟨h .stop, ?_⟩
  cases d with
  | answer c => exact absurd rfl (h c)
  | _ => exact nofun

theorem RunBook.stopped_perform {b : RunBook} {d : Deed} (h : d ≠ .answer .stop) :
    (b.perform d).stopped = b.stopped := by
  rcases b.perform_cases d with hd | ⟨hd, -⟩ | ⟨-, -, hd⟩ | ⟨run, -, hd⟩
  · rw [hd]
  · exact absurd hd h
  · rw [hd]
  · rw [hd]
    rfl

namespace Moment

variable {settings : Settings} {n : Moment} {log : List Entry} {id : SpriteId}

theorem stopped_after (settings : Settings) (hlog : ∀ e ∈ log, e.deed ≠ .answer .stop)
    (n : Moment) :
    (n.after settings log).world.runs.stopped = n.world.runs.stopped := by
  induction log generalizing n with
  | nil => rfl
  | cons e log ih =>
    obtain ⟨he, hlog⟩ := List.forall_mem_cons.1 hlog
    refine (ih hlog (n.perform settings e)).trans ?_
    rw [runs_perform, RunBook.stopped_perform he]

theorem after_of_spares (hs : ∀ e ∈ log, e.deed.Spares id) :
    (n.after settings log).world.runs.stopped = n.world.runs.stopped
      ∧ (n.after settings log).world.cast.part? id = n.world.cast.part? id := by
  refine ⟨stopped_after settings (fun e he => (hs e he).1) n, ?_⟩
  induction log generalizing n with
  | nil => rfl
  | cons e log ih =>
    obtain ⟨he, hlog⟩ := List.forall_mem_cons.1 hs
    exact (ih hlog (n := n.perform settings e)).trans
      (World.part?_perform settings e.time n.world he.2)

/-- While a run is live, only the one sprite of a cast plays in it. -/
theorem role_eq_of_solo {run : RunId} {s : Member} {r : Role} {b : Block}
    (ha : n.Allows (.execute r b)) (hl : n.world.runs.live = some run)
    (hm : n.world.cast.members = [s]) : r = ⟨run, s.id, s.generation⟩ := by
  obtain ⟨hlive, hcur, -⟩ := ha
  obtain ⟨r, id, generation⟩ := r
  rw [Cast.isCurrent, Cast.find?, hm, List.find?_singleton] at hcur
  split at hcur
  · rename_i hid
    simp only [decide_eq_true_eq] at hid
    simp only [Option.any_some, decide_eq_true_eq] at hcur
    cases hl.symm.trans hlive
    rw [← hid, ← hcur]
  · cases hcur

/-- A part that is not over was not over before. -/
theorem todo_ne_none_of_perform {r : Role} {e : Entry} (hr : r.run < n.world.runs.begun)
    (ha : n.Allows e.deed) (ht : (n.perform settings e).todo r ≠ none) : n.todo r ≠ none := by
  rw [todo_perform] at ht
  rcases todo_cases hr ha with ⟨-, h⟩ | ⟨b, left, -, h, -⟩ | ⟨-, h⟩
  · exact h ▸ ht
  · simp [h]
  · exact absurd h ht

/-- A run stays live while somebody plays in it and nobody calls. -/
theorem live_perform_of_todo {r : Role} {d : Deed} (ha : n.Allows d)
    (hl : n.world.runs.live = some r.run) (ht : n.todo r ≠ none) (hc : ∀ c, d ≠ .answer c) :
    (n.world.runs.perform d).live = some r.run := by
  cases d with
  | answer c => exact absurd rfl (hc c)
  | begin run => cases ha.1.symm.trans hl
  | finish run =>
    have hne : r.run ≠ run := fun h => ht (ha.2 r h)
    simp [RunBook.perform, RunBook.finish, hl, hne]
  | _ => exact hl

theorem cast_perform_begin (n : Moment) (t : Nat) (run : RunId) :
    (n.perform settings ⟨t, .begin run⟩).world.cast = n.world.cast := by
  simp only [perform, World.perform]
  split <;> rfl

theorem live_perform_begin {t : Nat} {run : RunId} (ha : n.Allows (.begin run)) :
    (n.perform settings ⟨t, .begin run⟩).world.runs.live = some run := by
  rw [runs_perform]
  simp [RunBook.perform, RunBook.begin?, ha.1, ha.2]

/-- Who leaves and was spared has run everything. -/
theorem executed_of_leave {t : Nat} {run : RunId} {s : Member} (ha : n.Allows (.begin run))
    (hs : s ∈ n.world.cast.members) (hcounted : n.world.runs.Counted)
    (hl : (n.perform settings ⟨t, .begin run⟩).Lawful settings log)
    (hspares : ∀ e ∈ log, e.deed.Spares s.id)
    (hleave : ((n.perform settings ⟨t, .begin run⟩).after settings log).Allows
      (.leave ⟨run, s.id, s.generation⟩)) :
    executed ⟨run, s.id, s.generation⟩ log = s.script.unrolled := by
  obtain ⟨hstopped, hpart⟩ := after_of_spares (n := n.perform settings ⟨t, .begin run⟩) hspares
  obtain ⟨script, ht, hquit⟩ := hleave
  have hgo : ((n.perform settings ⟨t, .begin run⟩).after settings log).world.runs.isStopped run
      = false := by
    have hbegin : Deed.begin run ≠ .answer .stop := by
      intro h
      cases h
    rw [RunBook.isStopped, hstopped, runs_perform,
      RunBook.stopped_perform (d := .begin run) hbegin, ← Bool.not_eq_true, List.contains_iff_mem]
    exact fun h => Nat.lt_irrefl _ (ha.2 ▸ hcounted run (.inr h))
  have hcur : ((n.perform settings ⟨t, .begin run⟩).after settings log).world.cast.isCurrent
      s.id s.generation = true := by
    rw [Cast.isCurrent_eq, hpart, cast_perform_begin, Cast.part?, Cast.find?_of_mem hs]
    simp [Member.part]
  have hnil : script = [] := by
    simpa [hgo, hcur] using hquit
  rcases ((plays_begin settings t ha hs).after hl).2 with ⟨left, hleft, heq⟩ | ⟨hnone, -⟩
  · cases hleft.symm.trans ht
    simpa [hnil] using heq
  · cases hnone.symm.trans ht

/-- Alone and left alone, a sprite stands where the blocks it has run have brought it, until its
part is over. -/
theorem after_solo {run : RunId} {s : Member} (hl : n.Lawful settings log)
    (hbegun : run < n.world.runs.begun) (hlive : n.world.runs.live = some run)
    (hm : n.world.cast.members = [s]) (hc : ∀ e ∈ log, ∀ c, e.deed ≠ .answer c)
    (ht : (n.after settings log).todo ⟨run, s.id, s.generation⟩ ≠ none) :
    ∃ g, (n.after settings log).world.cast.members = [{ s with figure := g }]
      ∧ (s.figure.enactAll (executed ⟨run, s.id, s.generation⟩ log)).StandsAs g := by
  refine ((hl.induction (P := fun before n => run < n.world.runs.begun
    ∧ (n.todo ⟨run, s.id, s.generation⟩ ≠ none → n.world.runs.live = some run
      ∧ ∃ g, n.world.cast.members = [{ s with figure := g }]
        ∧ (s.figure.enactAll (executed ⟨run, s.id, s.generation⟩ before)).StandsAs g))
    ⟨hbegun, fun _ => ⟨hlive, s.figure, hm, .refl _⟩⟩ ?_).2 ht).2
  intro e he before n ⟨hbegun, hn⟩ _ ha
  rw [runs_perform]
  refine ⟨Nat.lt_of_lt_of_le hbegun (RunBook.begun_le_perform _ _), fun ht => ?_⟩
  have htodo : n.todo ⟨run, s.id, s.generation⟩ ≠ none := todo_ne_none_of_perform hbegun ha ht
  obtain ⟨hlive, g, hm, hg⟩ := hn htodo
  refine ⟨live_perform_of_todo ha hlive htodo (hc e he), ?_⟩
  rw [executed_append, executed_singleton, Figure.enactAll_append]
  by_cases hd : ∃ r b, e.deed = .execute r b
  · obtain ⟨r, b, hd⟩ := hd
    rw [hd] at ha
    obtain rfl := role_eq_of_solo ha hlive hm
    have hfind : n.world.cast.find? s.id = some { s with figure := g } := by
      simp [Cast.find?, hm]
    obtain ⟨g', hm', hg'⟩ := World.execute_solo settings e.time hm b.command
    refine ⟨g', ?_, ?_⟩
    · rw [perform, hd]
      simpa only [World.perform, hfind] using hm'
    · rw [hd, Deed.block?, if_pos rfl]
      exact (hg.enact b.command).trans hg'
  · have hb : e.deed.block? ⟨run, s.id, s.generation⟩ = none := by
      cases he : e.deed with
      | execute r b => exact absurd ⟨r, b, he⟩ hd
      | _ => rfl
    obtain ⟨g', hm', hg'⟩ := World.perform_solo settings e.time hm (hc e he)
      (fun r b h => hd ⟨r, b, h⟩)
    rw [hb]
    exact ⟨g', hm', hg.trans hg'⟩

end Moment

namespace Course

variable (settings : Settings) (listening : Listening) (reactions : List Reaction) (ms : List Move)

/-- After a step delay a performer who is alone takes its turn. -/
theorem performers_of_turn {x : Course} {p : Performer} (hps : x.engine.performers = [p])
    (hwake : ∀ l wake, p.phase = .resting l wake → wake ≤ x.clock + settings.stepDelay) :
    (x.run settings [.pass settings.stepDelay, .performer 0]).engine.performers
      = (p.turn settings (x.clock + settings.stepDelay) x.engine.scene).2.toList := by
  have hr : p.isRunnable (x.clock + settings.stepDelay) x.engine.world := by
    rcases hphase : p.phase with rest | l | ⟨l, wake⟩ <;>
      simp only [Performer.isRunnable, hphase]
    simp [hwake l wake hphase]
  have hplace : (x.move settings (.pass settings.stepDelay)).runnable? 0 = some p :=
    Option.filter_eq_some_iff.2 ⟨hps ▸ rfl, hr⟩
  show ((x.move settings (.pass settings.stepDelay)).next settings (.performer 0)).performers = _
  simp only [next, hplace, Show.performers_performerTurn, around]
  simp [move, next, hps]

/-- A performer who is alone leaves if it gets enough turns, each a step delay after the last. -/
theorem performers_of_turns (n : Nat) {x : Course} {o : Option Performer}
    (hps : x.engine.performers = o.toList) (hwork : ∀ p, o = some p → p.phase.work ≤ n)
    (hwake : ∀ p l wake, o = some p → p.phase = .resting l wake →
      wake ≤ x.clock + settings.stepDelay) :
    (x.run settings (List.replicate n
      [.pass settings.stepDelay, .performer 0]).flatten).engine.performers = [] := by
  induction n generalizing x o with
  | zero =>
    cases o with
    | none => exact hps
    | some p => exact absurd (hwork p rfl) (Nat.not_le.2 p.phase.work_pos)
  | succ n ih =>
    rw [List.replicate_succ, List.flatten_cons, run_append]
    cases o with
    | none =>
      have hidle : (x.run settings [.pass settings.stepDelay, .performer 0]).engine = x.engine := by
        simp [run, move, next, runnable?, hps]
      exact ih (o := none) (hidle ▸ hps) (by simp) (by simp)
    | some p =>
      have hturn := performers_of_turn settings hps fun l wake => hwake p l wake rfl
      refine ih hturn (fun q hq => ?_) fun q l wake hq hphase => ?_
      · have hlt := Performer.work_lt_of_turn settings _ hq
        exact Nat.lt_succ_iff.1 (Nat.lt_of_lt_of_le hlt (hwork p rfl))
      · exact Performer.wake_le_of_turn settings _ hq hphase

/-- If a sprite is alone when a run begins, then the run begins with its performer. -/
theorem performers_play_solo {x : Course} (hnobody : x.engine.performers = []) {s : Member}
    (hsolo : x.engine.world.cast.members = [s]) {run : RunId} {runs : RunBook}
    (hbegin : x.engine.world.runs.begin? = some (run, runs)) :
    (x.move settings .play).engine.performers
      = [⟨s.id, s.generation, run, .opening s.script⟩] := by
  obtain ⟨engine, hplay⟩ := Show.exists_play? hbegin
  obtain ⟨-, -, hperm⟩ := Show.perm_of_play? hplay
  rw [Show.entering, hsolo, hnobody] at hperm
  have hnext : (x.move settings .play).engine = engine := by
    simp only [move, next, hplay]
  rw [hnext]
  exact (List.singleton_perm.1 hperm).symm

/-- A sprite that plays in a run that begins, and later has no performer in it, has left. -/
theorem leave_of_gone {x : Course} (hx : Show.Follows settings x.clock .start x.chronicle x.engine)
    {s : Member} (hs : s ∈ x.engine.world.cast.members) {run : RunId} {runs : RunBook}
    (hbegin : x.engine.world.runs.begin? = some (run, runs))
    (hgone : ∀ p ∈ (x.run settings (.play :: ms)).engine.performers,
      p.role ≠ ⟨run, s.id, s.generation⟩) :
    ∃ mid t rest, (x.run settings (.play :: ms)).chronicle
      = x.chronicle ++ ⟨x.clock, .begin run⟩
          :: (mid ++ ⟨t, .leave ⟨run, s.id, s.generation⟩⟩ :: rest) := by
  obtain ⟨post, hpost⟩ := chronicle_play settings x ms hbegin
  obtain ⟨hl, hagrees⟩ := run_induction settings x
    (P := fun y => Show.Follows settings y.clock .start y.chronicle y.engine) hx
    (fun y m hy => follows_next hy m) (.play :: ms)
  have hend : (Moment.start.after settings (x.run settings (.play :: ms)).chronicle).todo
      ⟨run, s.id, s.generation⟩ = none := by
    refine Option.eq_none_iff_forall_ne_some.2 fun script hscript => ?_
    obtain ⟨p, hp, hrole⟩ := hagrees.cues.mem_of_todo _ script hscript
    exact hgone p hp hrole
  rw [hpost, Moment.lawful_append] at hl
  rw [hpost, Moment.after_append] at hend
  obtain ⟨-, -, ha, hl⟩ := hl
  have hmember : s ∈ (Moment.start.after settings x.chronicle).world.cast.members :=
    hx.2.world ▸ hs
  obtain ⟨t, hleave⟩ := hl.exists_leave (Moment.plays_begin settings x.clock ha hmember).1
    (Moment.todo_begin settings run x.clock hmember ▸ nofun) hend
  obtain ⟨mid, rest, hsplit⟩ := List.append_of_mem hleave
  exact ⟨mid, t, rest, hsplit ▸ hpost⟩

/-- A sprite that is alone when a run begins, and is left alone, leaves if it gets enough turns. -/
theorem leave_of_turns {x : Course} (hx : Show.Follows settings x.clock .start x.chronicle x.engine)
    (hquiet : x.engine.scene.audience.waiting = []) (hnobody : x.engine.performers = [])
    {s : Member} (hsolo : x.engine.world.cast.members = [s]) {run : RunId} {runs : RunBook}
    (hbegin : x.engine.world.runs.begin? = some (run, runs)) {n : Nat}
    (hn : (Phase.opening s.script).work ≤ n) : ∃ mid t rest,
      (x.run settings (.play :: (List.replicate n
          [.pass settings.stepDelay, .performer 0]).flatten)).chronicle
        = x.chronicle ++ ⟨x.clock, .begin run⟩
            :: (mid ++ ⟨t, .leave ⟨run, s.id, s.generation⟩⟩ :: rest)
      ∧ ∀ e ∈ mid, ∀ c, e.deed ≠ .answer c := by
  have hgone := performers_of_turns settings n (x := x.move settings .play)
    (o := some ⟨s.id, s.generation, run, .opening s.script⟩)
    (performers_play_solo settings hnobody hsolo hbegin)
    (fun p hp => by cases hp; exact hn) (fun p l wake hp hphase => by cases hp; cases hphase)
  have hcalls : ∀ c, .call c ∉ Move.play :: (List.replicate n
      [Move.pass settings.stepDelay, .performer 0]).flatten := by
    simp [List.mem_flatten, List.mem_replicate]
  generalize (List.replicate n [Move.pass settings.stepDelay, .performer 0]).flatten = turns
    at hgone hcalls
  obtain ⟨mid, t, rest, hchronicle⟩ := leave_of_gone settings turns hx
    (hsolo ▸ List.mem_singleton_self s) hbegin fun p hp => absurd (hgone ▸ hp) List.not_mem_nil
  obtain ⟨log, hlog, hanswers⟩ := answers_quiet settings (.play :: turns) hquiet
  obtain rfl := List.append_cancel_left (hlog.symm.trans hchronicle)
  refine ⟨mid, t, rest, hchronicle, fun e he c hc => hcalls c (hanswers e ?_ c hc)⟩
  exact List.mem_cons_of_mem _ (List.mem_append_left _ he)

/-- Let a run begin somewhere in the chronicle of any moves, and let `s` be registered then.  The
blocks executed for `s` in this run are a prefix of its script unrolled.  They are all of that if
`s` leaves and was spared until then.  If `s` was alone, too, and nothing was called, then it ends
where its unrolled script leads. -/
theorem executed_unrolled {pre post : List Entry} {t : Nat} {run : RunId} {s : Member}
    (hchronicle : ((start listening reactions).run settings ms).chronicle
      = pre ++ ⟨t, .begin run⟩ :: post)
    (hs : s ∈ (Moment.start.after settings pre).world.cast.members) :
    executed ⟨run, s.id, s.generation⟩ (pre ++ ⟨t, .begin run⟩ :: post)
        <+: s.script.opening ++ s.script.repeated
      ∧ ∀ mid t' rest, post = mid ++ ⟨t', .leave ⟨run, s.id, s.generation⟩⟩ :: rest →
        (∀ e ∈ mid, e.deed.Spares s.id) →
        executed ⟨run, s.id, s.generation⟩ (pre ++ ⟨t, .begin run⟩ :: post)
            = s.script.opening ++ s.script.repeated
          ∧ ((Moment.start.after settings pre).world.cast.members = [s] →
            (∀ e ∈ mid, ∀ c, e.deed ≠ .answer c) →
            ∃ g, (Moment.start.after settings (pre ++ ⟨t, .begin run⟩ :: mid)).world.cast.members
                = [{ s with figure := g }]
              ∧ g.position = (s.figure.enactAll (s.script.opening ++ s.script.repeated)).position
              ∧ g.heading = (s.figure.enactAll (s.script.opening ++ s.script.repeated)).heading
              ∧ g.facing = s.figure.facing) := by
  have hl := lawful_run settings listening reactions ms
  rw [hchronicle, Moment.lawful_append] at hl
  obtain ⟨hpre, -, ha, hpost⟩ := hl
  have hcounted := hpre.counted
  generalize hn : Moment.start.after settings pre = n at hs ha hpost hcounted
  have hpast : executed ⟨run, s.id, s.generation⟩ pre = [] :=
    hpre.executed_eq_nil (by rw [hn]; exact Nat.le_of_eq ha.2.symm)
  have hplays := Moment.plays_begin settings t ha hs
  -- Nothing was executed in this run before it began, so `post` has all of its blocks.
  rw [executed_append, hpast, executed_cons_of_none rfl, List.nil_append, ← Script.unrolled_eq]
  have hinit := (hplays.after hpost).isPrefix
  rw [List.nil_append] at hinit
  refine ⟨hinit, ?_⟩
  rintro mid t' rest rfl hspares
  rw [Moment.lawful_append] at hpost
  obtain ⟨hmid, -, hleave, -⟩ := hpost
  have hdone := Moment.executed_of_leave ha hs hcounted hmid hspares hleave
  refine ⟨?_, fun hsolo hc => ?_⟩
  · refine hinit.eq_of_length_le ?_
    rw [← hdone, executed_append]
    exact (List.prefix_append _ _).length_le
  · obtain ⟨left, ht, -⟩ := hleave
    have hcast : (n.perform settings ⟨t, .begin run⟩).world.cast = n.world.cast :=
      Moment.cast_perform_begin n t run
    obtain ⟨g, hg, hp, hh, hf⟩ := Moment.after_solo hmid hplays.1
      (Moment.live_perform_begin ha) (hcast ▸ hsolo) hc (by rw [ht]; exact nofun)
    rw [hdone] at hp hh hf
    rw [Moment.after_append, hn]
    exact ⟨g, hg, hp, hh, hf.trans (Figure.facing_enactAll _ _)⟩

/-- A sprite that is alone turns once and jumps twice, and then it leaves and stands there. -/
theorem executed_turning_then_jumping : ∃ (s : Member) (pre mid rest : List Entry) (t : Nat)
    (g : Figure),
    s = ⟨"a", "t", .new .center, [⟨"1", .turn 90⟩, ⟨"2", .loop 2⟩, ⟨"3", .goTo 1 2⟩], 1⟩
      ∧ ((start .ignoring []).run .default ([.call (.register "a" .center s.script "t")]
          ++ .play :: (List.replicate 11
            [.pass Settings.default.stepDelay, .performer 0]).flatten)).chronicle
        = pre ++ ⟨0, .begin 0⟩ :: (mid ++ ⟨t, .leave ⟨0, "a", 1⟩⟩ :: rest)
      ∧ executed ⟨0, "a", 1⟩ (pre ++ ⟨0, .begin 0⟩ :: (mid ++ ⟨t, .leave ⟨0, "a", 1⟩⟩ :: rest))
        = [⟨"1", .turn 90⟩, ⟨"3", .goTo 1 2⟩, ⟨"3", .goTo 1 2⟩]
      ∧ (Moment.start.after .default (pre ++ ⟨0, .begin 0⟩ :: mid)).world.cast.members
        = [{ s with figure := g }]
      ∧ g.position = ⟨1, 2⟩ ∧ g.heading = ⟨90⟩ ∧ g.facing = .forward := by
  obtain ⟨s, hs⟩ : ∃ s : Member, s
    = ⟨"a", "t", .new .center, [⟨"1", .turn 90⟩, ⟨"2", .loop 2⟩, ⟨"3", .goTo 1 2⟩], 1⟩ := ⟨_, rfl⟩
  obtain ⟨c, hc⟩ : ∃ c, c = Call.register "a" .center s.script "t" := ⟨_, rfl⟩
  obtain ⟨x, hx⟩ : ∃ x, x = (start .ignoring []).run .default [.call c] := ⟨_, rfl⟩
  have hworld : x.engine.world = (World.initial.perform .default 0 (.answer c)).1 := by
    rw [hx]
    exact (Scene.perform_quiet .default 0 (s := (start .ignoring []).engine.scene) rfl
      (.answer c)).1
  have hbegin : x.engine.world.runs.begin? = some (0, ⟨1, some 0, [], []⟩) := by
    rw [hworld, hc]
    rfl
  have hsolo : x.engine.world.cast.members = [s] := by
    rw [hworld, hc, hs]
    rfl
  have hfollows : Show.Follows .default x.clock .start x.chronicle x.engine :=
    hx ▸ follows_run .default .ignoring [] [.call c]
  obtain ⟨mid, t, rest, hchronicle, hcalls⟩ := leave_of_turns .default hfollows
    (hx ▸ quiet_run .default rfl [.call c]) (hx ▸ rfl) hsolo hbegin (n := 11) (hs ▸ Nat.le_refl 11)
  have hmembers : (Moment.start.after .default x.chronicle).world.cast.members = [s] := by
    rw [hfollows.2.world]
    exact hsolo
  have hrun : (start .ignoring []).run .default ([.call c] ++ .play :: (List.replicate 11
      [.pass Settings.default.stepDelay, .performer 0]).flatten) = _ := run_append ..
  have hclock : x.clock = 0 := hx ▸ rfl
  rw [← hx] at hrun
  rw [← hrun, hclock] at hchronicle
  subst hs hc
  obtain ⟨-, hspared⟩ := executed_unrolled .default .ignoring [] _ hchronicle
    (hmembers ▸ List.mem_singleton_self _)
  obtain ⟨hall, hends⟩ := hspared mid t rest rfl
    fun e he => Deed.spares_of_ne_answer (hcalls e he) _
  obtain ⟨g, hg, hposition, hheading, hfacing⟩ := hends hmembers hcalls
  exact ⟨_, x.chronicle, mid, rest, t, g, rfl, hchronicle, hall, hg, hposition, hheading, hfacing⟩

end Course

end SpriteCanvas
