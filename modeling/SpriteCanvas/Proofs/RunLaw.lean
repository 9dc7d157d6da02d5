import SpriteCanvas.Playback.Session
import SpriteCanvas.Proofs.Frame

/-!
# The life of a run

A run is open from its beginning until it ends or is stopped, and the run book holds the open run
and no other (`live_iff_open`).  A stop cancels the open run alone, and what comes out of a run is
settled at its end by whether that happened (`outcome?_stopped_iff`, `outcome?_completed_iff`).
Runs that were stopped may end at any later time, also while another one is open.
-/

namespace SpriteCanvas

/-- What can be asked of the run book. -/
inductive RunOp where
  | begin
  | stop
  /-- The last performer of a run has ended. -/
  | finish (run : RunId)

/-- What came of an operation. -/
inductive RunEvent where
  | began (run : RunId)
  | refused
  | stopped
  | ended (run : RunId)

namespace RunBook

/-- Does an operation and tells what came of it. -/
def operate (b : RunBook) : RunOp → RunEvent × RunBook
  | .begin =>
    match b.begin? with
    | some (run, b) => (.began run, b)
    | none => (.refused, b)
  | .stop => (.stopped, b.stop)
  | .finish run => (.ended run, b.finish run)

/-- What came of operations on a new run book, and the run book after them. -/
def operateAll (ops : List RunOp) : List RunEvent × RunBook :=
  ops.foldl (fun x op => (x.1 ++ [(x.2.operate op).1], (x.2.operate op).2)) ([], .empty)

theorem operateAll_concat (ops : List RunOp) (op : RunOp) :
    operateAll (ops ++ [op])
      = ((operateAll ops).1 ++ [((operateAll ops).2.operate op).1],
        ((operateAll ops).2.operate op).2) := by
  simp [operateAll]

end RunBook

namespace RunEvent

variable (h : List RunEvent) (run : RunId)

/-- A run has begun, and has neither ended nor been stopped. -/
def Open : Prop := ∃ pre post, h = pre ++ began run :: post ∧ ended run ∉ post ∧ stopped ∉ post

/-- A stop came after a run had begun and before it ended. -/
def Cancelled : Prop :=
  ∃ pre mid post, h = pre ++ began run :: (mid ++ stopped :: post) ∧ ended run ∉ mid

/-- A stop came between the beginning and the end of a run. -/
def EndedStopped : Prop :=
  ∃ pre mid post, h = pre ++ began run :: (mid ++ ended run :: post) ∧ stopped ∈ mid

/-- No stop came between the beginning and the end of a run. -/
def EndedUnstopped : Prop :=
  ∃ pre mid post, h = pre ++ began run :: (mid ++ ended run :: post) ∧ stopped ∉ mid

/-- Only runs that have begun end, and each of them once. -/
def Proper : Prop :=
  ∀ pre run post, h = pre ++ ended run :: post → began run ∈ pre ∧ ended run ∉ pre

variable {h run} {e : RunEvent}

theorem Proper.init (hp : Proper (h ++ [e])) : Proper h := fun pre run post hh =>
  hp pre run (post ++ [e]) (by simp [hh])

theorem Proper.concat (hp : Proper h) (he : ∀ run, e = ended run → began run ∈ h ∧ ended run ∉ h) :
    Proper (h ++ [e]) := fun pre run post hh => by
  rcases concat_eq_append_cons hh with ⟨rfl, hx, -⟩ | ⟨mid, -, hm⟩
  · exact he run hx.symm
  · exact hp pre run mid hm

theorem proper_nil : Proper [] := fun pre run post hh => by simp at hh

theorem Proper.last (hp : Proper (h ++ [ended run])) : began run ∈ h ∧ ended run ∉ h :=
  hp h run [] rfl

theorem not_open_nil : ¬ Open [] run := by
  rintro ⟨pre, post, hh, -⟩
  simp at hh

theorem open_concat :
    Open (h ++ [e]) run ↔ e = began run ∨ Open h run ∧ e ≠ ended run ∧ e ≠ stopped := by
  constructor
  · rintro ⟨pre, post, hh, he, hs⟩
    rcases concat_eq_append_cons hh with ⟨-, hx, -⟩ | ⟨mid, rfl, hm⟩
    · exact .inl hx.symm
    · simp only [List.mem_append, List.mem_singleton, not_or] at he hs
      exact .inr ⟨⟨pre, mid, hm, he.1, hs.1⟩, Ne.symm he.2, Ne.symm hs.2⟩
  · rintro (rfl | ⟨⟨pre, post, rfl, he, hs⟩, hne, hns⟩)
    · exact ⟨h, [], rfl, by simp, by simp⟩
    · exact ⟨pre, post ++ [e], by simp, by simp [he, hne.symm], by simp [hs, hns.symm]⟩

theorem not_cancelled_nil : ¬ Cancelled [] run := by
  rintro ⟨pre, mid, post, hh, -⟩
  simp at hh

theorem cancelled_concat :
    Cancelled (h ++ [e]) run ↔ Cancelled h run ∨ e = stopped ∧ Open h run := by
  constructor
  · rintro ⟨pre, mid, post, hh, he⟩
    rcases List.eq_nil_or_concat post with rfl | ⟨post, z, rfl⟩
    · have hh' : h ++ [e] = (pre ++ began run :: mid) ++ [stopped] := by simpa using hh
      obtain ⟨rfl, hz⟩ := List.append_inj' hh' rfl
      obtain rfl := List.singleton_inj.1 hz
      by_cases hs : stopped ∈ mid
      · obtain ⟨mid₁, mid₂, rfl⟩ := List.append_of_mem hs
        simp only [List.mem_append, not_or] at he
        exact .inl ⟨pre, mid₁, mid₂, rfl, he.1⟩
      · exact .inr ⟨rfl, pre, mid, rfl, he, hs⟩
    · have hh' : h ++ [e] = (pre ++ began run :: (mid ++ stopped :: post)) ++ [z] := by
        simpa using hh
      obtain ⟨rfl, -⟩ := List.append_inj' hh' rfl
      exact .inl ⟨pre, mid, post, rfl, he⟩
  · rintro (⟨pre, mid, post, rfl, he⟩ | ⟨rfl, pre, post, rfl, he, -⟩)
    · exact ⟨pre, mid, post ++ [e], by simp, he⟩
    · exact ⟨pre, post, [], by simp, he⟩

theorem EndedStopped.ended_mem (hs : EndedStopped h run) : ended run ∈ h := by
  obtain ⟨pre, mid, post, rfl, -⟩ := hs
  simp

theorem EndedUnstopped.ended_mem (hs : EndedUnstopped h run) : ended run ∈ h := by
  obtain ⟨pre, mid, post, rfl, -⟩ := hs
  simp

theorem not_endedStopped_nil : ¬ EndedStopped [] run := fun hs => List.not_mem_nil hs.ended_mem

theorem not_endedUnstopped_nil : ¬ EndedUnstopped [] run := fun hs =>
  List.not_mem_nil hs.ended_mem

/-- Where the end of a run can be in a list with one more event. -/
theorem ended_split_concat {pre mid post : List RunEvent}
    (hh : h ++ [e] = pre ++ began run :: (mid ++ ended run :: post)) :
    (e = ended run ∧ h = pre ++ began run :: mid)
      ∨ ∃ post', h = pre ++ began run :: (mid ++ ended run :: post') := by
  have hh' : h ++ [e] = (pre ++ began run :: mid) ++ ended run :: post := by simpa using hh
  rcases concat_eq_append_cons hh' with ⟨hpre, hx, -⟩ | ⟨post', -, hp⟩
  · exact .inl ⟨hx.symm, hpre.symm⟩
  · exact .inr ⟨post', by simpa using hp⟩

theorem endedStopped_concat (hp : Proper (h ++ [e])) :
    EndedStopped (h ++ [e]) run ↔ EndedStopped h run ∨ e = ended run ∧ Cancelled h run := by
  constructor
  · rintro ⟨pre, mid, post, hh, hs⟩
    rcases ended_split_concat hh with ⟨rfl, rfl⟩ | ⟨post', hh'⟩
    · obtain ⟨mid₁, mid₂, rfl⟩ := List.append_of_mem hs
      have hne := hp.last.2
      simp only [List.mem_append, List.mem_cons, not_or] at hne
      exact .inr ⟨rfl, pre, mid₁, mid₂, rfl, hne.2.2.1⟩
    · exact .inl ⟨pre, mid, post', hh', hs⟩
  · rintro (⟨pre, mid, post, rfl, hs⟩ | ⟨rfl, pre, mid, post, rfl, -⟩)
    · exact ⟨pre, mid, post ++ [e], by simp, hs⟩
    · exact ⟨pre, mid ++ stopped :: post, [], by simp, by simp⟩

theorem endedUnstopped_concat (hp : Proper (h ++ [e])) :
    EndedUnstopped (h ++ [e]) run ↔ EndedUnstopped h run ∨ e = ended run ∧ Open h run := by
  constructor
  · rintro ⟨pre, mid, post, hh, hs⟩
    rcases ended_split_concat hh with ⟨rfl, rfl⟩ | ⟨post', hh'⟩
    · have hne := hp.last.2
      simp only [List.mem_append, List.mem_cons, not_or] at hne
      exact .inr ⟨rfl, pre, mid, rfl, hne.2.2, hs⟩
    · exact .inl ⟨pre, mid, post', hh', hs⟩
  · rintro (⟨pre, mid, post, rfl, hs⟩ | ⟨rfl, pre, post, rfl, -, hs⟩)
    · exact ⟨pre, mid, post ++ [e], by simp, hs⟩
    · exact ⟨pre, post, [], by simp, hs⟩

/-- A run that has begun and not ended is open, or a stop cancelled it. -/
theorem open_or_cancelled (hb : began run ∈ h) (he : ended run ∉ h) :
    Open h run ∨ Cancelled h run := by
  obtain ⟨pre, post, rfl⟩ := List.append_of_mem hb
  simp only [List.mem_append, List.mem_cons, not_or] at he
  by_cases hs : stopped ∈ post
  · obtain ⟨mid, post, rfl⟩ := List.append_of_mem hs
    simp only [List.mem_append, not_or] at he
    exact .inr ⟨pre, mid, post, rfl, he.2.2.1⟩
  · exact .inl ⟨pre, post, rfl, he.2.2, hs⟩

end RunEvent

namespace RunBook

open RunEvent

/-- A run book tells what has happened to the runs. -/
structure Records (b : RunBook) (h : List RunEvent) : Prop where
  live : ∀ run, b.live = some run ↔ Open h run
  stopped : ∀ run, run ∈ b.stopped ↔ Cancelled h run
  apart : ∀ run, b.live = some run → run ∉ b.stopped
  endedStopped : ∀ run, b.outcome? run = some .stopped ↔ EndedStopped h run
  endedUnstopped : ∀ run, b.outcome? run = some .completed ↔ EndedUnstopped h run
  begun : ∀ run, .began run ∈ h → run < b.begun
  once : ∀ pre run post, h = pre ++ .began run :: post → .began run ∉ post

variable {b : RunBook} {h : List RunEvent}

theorem records_empty : empty.Records [] where
  live run := by simp [empty, not_open_nil]
  stopped run := by simp [empty, not_cancelled_nil]
  apart run hl := by simp [empty] at hl
  endedStopped run := by simp [empty, outcome?, not_endedStopped_nil]
  endedUnstopped run := by simp [empty, outcome?, not_endedUnstopped_nil]
  begun run hb := by simp at hb
  once pre run post hh := by simp at hh

/-- An event that is no beginning adds none. -/
theorem Records.once_concat (hb : b.Records h) {e : RunEvent} (hne : ∀ run, e ≠ .began run)
    (pre : List RunEvent) (run : RunId) (post : List RunEvent)
    (hh : h ++ [e] = pre ++ .began run :: post) : .began run ∉ post := by
  rcases concat_eq_append_cons hh with ⟨-, hx, -⟩ | ⟨mid, rfl, hm⟩
  · exact absurd hx.symm (hne run)
  · simp [hb.once pre run mid hm, (hne run).symm]

theorem Records.refused (hb : b.Records h) (hp : Proper (h ++ [.refused])) :
    b.Records (h ++ [.refused]) where
  live run := by simp [open_concat, hb.live]
  stopped run := by simp [cancelled_concat, hb.stopped]
  apart := hb.apart
  endedStopped run := by simp [endedStopped_concat hp, hb.endedStopped]
  endedUnstopped run := by simp [endedUnstopped_concat hp, hb.endedUnstopped]
  begun run := by simpa using hb.begun run
  once := hb.once_concat (by simp)

theorem Records.began (hb : b.Records h) (hl : b.live = none)
    (hp : Proper (h ++ [.began b.begun])) :
    Records { b with begun := b.begun + 1, live := some b.begun } (h ++ [.began b.begun]) where
  live run := by
    have hno : ¬ Open h run := by simp [← hb.live, hl]
    simp [open_concat, hno]
  stopped run := by simp [cancelled_concat, hb.stopped]
  apart run hr hs := by
    obtain rfl := Option.some.inj hr
    obtain ⟨pre, mid, post, rfl, -⟩ := (hb.stopped _).1 hs
    exact absurd (hb.begun b.begun (by simp)) (Nat.lt_irrefl _)
  endedStopped run := by
    show b.outcome? run = _ ↔ _
    simp [endedStopped_concat hp, hb.endedStopped]
  endedUnstopped run := by
    show b.outcome? run = _ ↔ _
    simp [endedUnstopped_concat hp, hb.endedUnstopped]
  begun run hr := by
    simp only [List.mem_append, List.mem_singleton, RunEvent.began.injEq] at hr
    rcases hr with hr | rfl
    · exact Nat.lt_succ_of_lt (hb.begun run hr)
    · exact Nat.lt_succ_self _
  once pre run post hh := by
    rcases concat_eq_append_cons hh with ⟨-, -, rfl⟩ | ⟨mid, rfl, hm⟩
    · simp
    · have hlt := hb.begun run (by simp [hm])
      have hne : run ≠ b.begun := Nat.ne_of_lt hlt
      simp [hb.once pre run mid hm, hne]

theorem Records.stop (hb : b.Records h) (hp : Proper (h ++ [.stopped])) :
    b.stop.Records (h ++ [.stopped]) := by
  have hout : b.stop.outcome? = b.outcome? := by
    funext run
    rw [outcome?, ended_stop, outcome?]
  have hlive := b.live_stop
  have hstopped : ∀ run, run ∈ b.stop.stopped ↔ run ∈ b.stopped ∨ b.live = some run :=
    fun _ => b.mem_stopped_stop
  have hbegun := b.begun_stop
  exact {
    live := fun run => by simp [open_concat, hlive]
    stopped := fun run => by simp [hstopped, cancelled_concat, hb.stopped, hb.live]
    apart := fun run hl => by simp [hlive] at hl
    endedStopped := fun run => by simp [hout, endedStopped_concat hp, hb.endedStopped]
    endedUnstopped := fun run => by simp [hout, endedUnstopped_concat hp, hb.endedUnstopped]
    begun := fun run => by simpa [hbegun] using hb.begun run
    once := hb.once_concat (by simp) }

theorem Records.outcomeOf_stopped (hb : b.Records h) (r : RunId) :
    b.outcomeOf r = .stopped ↔ Cancelled h r := by
  rw [← hb.stopped]
  simp [outcomeOf, isStopped]

theorem Records.outcomeOf_completed (hb : b.Records h) {r : RunId} (hbegan : .began r ∈ h)
    (hended : .ended r ∉ h) : b.outcomeOf r = .completed ↔ Open h r := by
  have hor := open_or_cancelled hbegan hended
  rw [← hb.live, ← hb.stopped] at hor
  rw [← hb.live]
  simp only [outcomeOf, isStopped, List.contains_iff_mem]
  split
  · rename_i hs
    simp only [reduceCtorEq, false_iff]
    exact fun hl => hb.apart r hl hs
  · rename_i hs
    simpa [hs] using hor

theorem Records.finish (hb : b.Records h) {r : RunId} (hp : Proper (h ++ [.ended r])) :
    (b.finish r).Records (h ++ [.ended r]) := by
  obtain ⟨hbegan, hended⟩ := hp.last
  refine {
    live := fun run => ?_
    stopped := fun run => by simp [RunBook.finish, cancelled_concat, hb.stopped]
    apart := fun run hl => ?_
    endedStopped := fun run => ?_
    endedUnstopped := fun run => ?_
    begun := fun run => by simpa [RunBook.finish] using hb.begun run
    once := hb.once_concat (by simp) }
  · simp only [RunBook.finish, open_concat, ← hb.live]
    by_cases hl : b.live = some r
    · simp [hl]
    · by_cases hr : run = r
      · simp [hl, hr]
      · simp [hl, Ne.symm hr]
  · simp only [RunBook.finish] at hl ⊢
    split at hl
    · cases hl
    · exact hb.apart run hl
  · rw [RunBook.outcome?_finish, endedStopped_concat hp]
    by_cases hr : run = r
    · subst hr
      have hno : ¬ EndedStopped h run := fun hs => hended hs.ended_mem
      simp [hb.outcomeOf_stopped, hno]
    · simp [hr, Ne.symm hr, hb.endedStopped]
  · rw [RunBook.outcome?_finish, endedUnstopped_concat hp]
    by_cases hr : run = r
    · subst hr
      have hno : ¬ EndedUnstopped h run := fun hs => hended hs.ended_mem
      simp [hb.outcomeOf_completed hbegan hended, hno]
    · simp [hr, Ne.symm hr, hb.endedUnstopped]

/-- Each operation keeps the book in step with what has happened. -/
theorem Records.operate (hb : b.Records h) (op : RunOp) (hp : Proper (h ++ [(b.operate op).1])) :
    (b.operate op).2.Records (h ++ [(b.operate op).1]) := by
  cases op with
  | begin =>
    rcases hl : b.live with _ | r
    · have ho : b.operate .begin
          = (.began b.begun, { b with begun := b.begun + 1, live := some b.begun }) := by
        simp [RunBook.operate, begin?, hl]
      rw [ho] at hp ⊢
      exact hb.began hl hp
    · have ho : b.operate .begin = (.refused, b) := by simp [RunBook.operate, begin?, hl]
      rw [ho] at hp ⊢
      exact hb.refused hp
  | stop => exact hb.stop hp
  | finish r => exact hb.finish hp

theorem records_operateAll (ops : List RunOp) (hp : Proper (operateAll ops).1) :
    (operateAll ops).2.Records (operateAll ops).1 := by
  induction ops using List.reverseRecOn with
  | nil => exact records_empty
  | append_singleton ops op ih =>
    rw [operateAll_concat] at hp ⊢
    exact (ih hp.init).operate op hp

/-- For operations in any order, each run ending at most once and after it has begun: the book
holds the open run, and there is at most one; a request to play is refused exactly while there is
one, and then it changes nothing; the end of another run leaves it; and a run's outcome tells
whether a stop came between its beginning and its end. -/
theorem runs_follow_history (ops : List RunOp) (hp : Proper (operateAll ops).1) :
    let h := (operateAll ops).1
    let b := (operateAll ops).2
    (∀ run, b.live = some run ↔ Open h run)
      ∧ (∀ run run', Open h run → Open h run' → run = run')
      ∧ (b.isRunning = true ↔ ∃ run, Open h run)
      ∧ (b.begin? = none ↔ ∃ run, Open h run)
      ∧ (∀ s : Session, s.engine.world.runs = b →
          (s.request.1 = .refused ↔ ∃ run, Open h run)
            ∧ (s.request.1 = .refused →
              s.request.2 = { s with plays := s.plays ++ [.refused] }))
      ∧ (∀ run run', Open h run → run' ≠ run → (b.finish run').live = some run)
      ∧ (∀ run, b.isStopped run = true ↔ Cancelled h run)
      ∧ (∀ run, b.outcome? run = some .stopped ↔ EndedStopped h run)
      ∧ (∀ run, b.outcome? run = some .completed ↔ EndedUnstopped h run)
      ∧ ∀ pre run post, h = pre ++ .began run :: post → .began run ∉ post := by
  intro h b
  have hb : b.Records h := records_operateAll ops hp
  have hlive : (∃ run, Open h run) ↔ ∃ run, b.live = some run :=
    exists_congr fun run => (hb.live run).symm
  have hbegin : b.begin? = none ↔ ∃ run, Open h run := by
    rw [hlive]
    rcases hl : b.live with _ | r <;> simp [begin?, hl]
  refine ⟨hb.live, fun run run' ho ho' => ?_, ?_, hbegin, fun s hs => ?_, fun run run' ho hne => ?_,
    fun run => ?_, hb.endedStopped, hb.endedUnstopped, hb.once⟩
  · rw [← hb.live] at ho ho'
    exact Option.some.inj (ho.symm.trans ho')
  · rw [hlive, isRunning, Option.isSome_iff_exists]
  · rw [← hbegin, ← hs]
    unfold Session.request Show.play?
    rcases hr : s.engine.world.runs.begin? with _ | ⟨run, runs⟩ <;> simp
  · rw [← hb.live] at ho
    simp [RunBook.finish, ho, hne.symm]
  · rw [← hb.stopped]
    simp [isStopped]

/-- A run is stopped, a second one begins, and the first one ends before the second. -/
theorem stopped_run_ends_late :
    let ops : List RunOp := [.begin, .stop, .begin, .begin, .finish 0, .finish 1]
    Proper (operateAll ops).1 ∧ EndedStopped (operateAll ops).1 0
      ∧ EndedUnstopped (operateAll ops).1 1 := by
  intro ops
  have hh : (operateAll ops).1 = ((((([] ++ [.began 0]) ++ [.stopped]) ++ [.began 1]) ++ [.refused])
      ++ [.ended 0]) ++ [.ended 1] := rfl
  have hp : Proper (operateAll ops).1 := by
    rw [hh]
    refine ((((((proper_nil.concat ?_).concat ?_).concat ?_).concat ?_).concat ?_).concat ?_) <;>
      simp
  have law := runs_follow_history ops hp
  exact ⟨hp, (law.2.2.2.2.2.2.2.1 0).1 rfl, (law.2.2.2.2.2.2.2.2.1 1).1 rfl⟩

end RunBook

end SpriteCanvas
