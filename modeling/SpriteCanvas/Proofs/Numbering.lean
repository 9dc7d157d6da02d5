import Mathlib.Data.List.Range
import SpriteCanvas.Proofs.Lawful
import SpriteCanvas.Proofs.Renewal
import SpriteCanvas.Proofs.Settling
import SpriteCanvas.Proofs.Timekeeping

/-!
# The numbers of alarms

The alarms that a chronicle sets are numbered one after the other, so no number is given out twice
(`Moment.numbers_eq`).  What is live in the schedule is what the slots of the registered sprites
hold, neither more nor less (`Course.alarms_fill_slots`).
-/

namespace SpriteCanvas

namespace World

variable (settings : Settings) (now : Nat)

/-- The numbers that are given out while sprites are struck. -/
def strikeNumbers : List SpriteId → World → List AlarmId
  | [], _ => []
  | id :: ids, w =>
    match w.cast.find? id with
    | some _ =>
      (w.alarms.set settings.clockStart now settings.highlightTime (.highlight id)).1
        :: strikeNumbers ids (w.strike settings now id).1
    | none => strikeNumbers ids w

/-- The number that is given out before any strike. -/
def ownNumber? (w : World) : Deed → Option AlarmId
  | .execute r b =>
    match w.cast.find? r.id, b.command with
    | some m, .say _ secs | some m, .think _ secs =>
      some (w.alarms.set settings.clockStart now (Duration.ofSeconds secs) (.message m.id)).1
    | _, _ => none
  | _ => none

/-- The world in which a deed strikes whom it strikes. -/
def beforeStrikes (w : World) : Deed → World
  | .execute r b =>
    match w.cast.find? r.id with
    | some m => w.apply settings now m b.command
    | none => w
  | .answer .drainChecks | .drain _ => { w with checks := .empty }
  | _ => w

/-- The numbers that are given out in a deed, in order. -/
def numbers (w : World) (d : Deed) : List AlarmId :=
  (w.ownNumber? settings now d).toList
    ++ strikeNumbers settings now (w.struck settings now d) (w.beforeStrikes settings now d)

variable {settings now} in
theorem next_strike {w : World} {id : SpriteId} {m : Member} (hm : w.cast.find? id = some m) :
    (w.strike settings now id).1.alarms.next = w.alarms.next + 1 := by
  simp only [strike, hm, next_cancel?]
  rfl

/-- Strikes give out the next numbers in order. -/
theorem strikeNumbers_eq : ∀ (ids : List SpriteId) (w : World), ∃ n,
    strikeNumbers settings now ids w = List.range' w.alarms.next n
      ∧ (strikeAll settings now ids w).1.alarms.next = w.alarms.next + n
  | [], w => ⟨0, rfl, rfl⟩
  | id :: ids, w => by
    rcases hm : w.cast.find? id with _ | m
    · have hw : (w.strike settings now id).1 = w := by rw [strike, hm]
      simp only [strikeNumbers, strikeAll, hm, hw]
      exact strikeNumbers_eq ids w
    · obtain ⟨n, hn, hnext⟩ := strikeNumbers_eq ids (w.strike settings now id).1
      rw [next_strike hm] at hn hnext
      refine ⟨n + 1, ?_, ?_⟩
      · simp only [strikeNumbers, hm, hn, List.range'_succ]
        rfl
      · simp only [strikeAll, hnext, Nat.add_assoc, Nat.add_comm 1 n]

theorem next_apply (w : World) (m : Member) (c : Command) :
    (w.apply settings now m c).alarms.next
      = w.alarms.next + match c with | .say _ _ | .think _ _ => 1 | _ => 0 := by
  cases c with
  | move steps =>
    simp only [apply]
    split <;> rfl
  | say text secs => exact next_cancel? _ _
  | think text secs => exact next_cancel? _ _
  | _ => rfl

/-- Before any strike at most the next number is given out. -/
theorem ownNumber?_eq (w : World) (d : Deed) : ∃ n,
    (w.ownNumber? settings now d).toList = List.range' w.alarms.next n
      ∧ (w.beforeStrikes settings now d).alarms.next = w.alarms.next + n := by
  cases d with
  | execute r b =>
    simp only [beforeStrikes, ownNumber?]
    rcases w.cast.find? r.id with _ | m
    · exact ⟨0, rfl, rfl⟩
    · refine ⟨_, ?_, next_apply settings now w m b.command⟩
      cases b.command <;> rfl
  | answer c => cases c <;> exact ⟨0, rfl, rfl⟩
  | _ => exact ⟨0, rfl, rfl⟩

/-- After the strikes of a deed no more numbers are given out. -/
theorem next_perform (w : World) (d : Deed) :
    (w.perform settings now d).1.alarms.next
      = (strikeAll settings now (w.struck settings now d)
          (w.beforeStrikes settings now d)).1.alarms.next := by
  cases d with
  | answer c =>
    cases c with
    | unregister id =>
      show (w.unregister id).1.alarms.next = w.alarms.next
      rw [alarms_unregister, Alarms.next_cancelAll]
    | queueCheck id =>
      simp only [perform, reply]
      split <;> rfl
    | stop =>
      show ({ w with runs := w.runs.stop } : World).hushAll.1.alarms.next = w.alarms.next
      rw [alarms_hushAll, Alarms.next_cancelAll]
    | _ => rfl
  | execute r b =>
    simp only [perform, struck, beforeStrikes]
    rcases w.cast.find? r.id with _ | m
    · rfl
    · simp only [execute]
      split <;> rfl
  | begin run =>
    simp only [perform]
    split <;> rfl
  | ring alarm expiry =>
    show (w.ring alarm expiry).1.alarms.next = w.alarms.next
    rw [ring_alarms]
  | _ => rfl

/-- A deed gives out the next numbers in order. -/
theorem numbers_eq (w : World) (d : Deed) : ∃ n,
    w.numbers settings now d = List.range' w.alarms.next n
      ∧ (w.perform settings now d).1.alarms.next = w.alarms.next + n := by
  obtain ⟨k, hk, hown⟩ := ownNumber?_eq settings now w d
  obtain ⟨n, hn, hnext⟩ := strikeNumbers_eq settings now
    (w.struck settings now d) (w.beforeStrikes settings now d)
  rw [hown] at hn hnext
  refine ⟨k + n, ?_, ?_⟩
  · rw [numbers, hk, hn, List.range'_append_1]
  · rw [next_perform, hnext, Nat.add_assoc]

end World

namespace Moment

variable (settings : Settings)

/-- The numbers of alarms that are given out in a chronicle, in order. -/
def numbers : Moment → List Entry → List AlarmId
  | _, [] => []
  | n, e :: log =>
    n.world.numbers settings e.time e.deed ++ numbers (n.perform settings e) log

theorem numbers_concat (log : List Entry) (e : Entry) (n : Moment) :
    n.numbers settings (log ++ [e])
      = n.numbers settings log
        ++ (n.after settings log).world.numbers settings e.time e.deed := by
  induction log generalizing n with
  | nil => simp [numbers]
  | cons e' log ih => simp [numbers, ih]

/-- The numbers of a chronicle go on from the next one, one after the other. -/
theorem numbers_eq (log : List Entry) (m : Moment) : ∃ n,
    m.numbers settings log = List.range' m.world.alarms.next n
      ∧ (m.after settings log).world.alarms.next = m.world.alarms.next + n := by
  induction log generalizing m with
  | nil => exact ⟨0, rfl, rfl⟩
  | cons e log ih =>
    obtain ⟨k, hk, hnext⟩ := World.numbers_eq settings e.time m.world e.deed
    obtain ⟨n, hn, hafter⟩ := ih (m.perform settings e)
    rw [show (m.perform settings e).world.alarms.next = _ from hnext] at hn hafter
    refine ⟨k + n, ?_, ?_⟩
    · rw [numbers, hk, hn, List.range'_append_1]
    · rw [after_cons, hafter, Nat.add_assoc]

variable {settings} in
/-- What a slot holds was given out. -/
theorem Lawful.mem_numbers {log : List Entry} (h : start.Lawful settings log) {e : Expiry}
    {k : AlarmId} (hk : (start.after settings log).world.slots e = some k) :
    k ∈ start.numbers settings log := by
  refine (h.induction (P := fun log n => n = start.after settings log
      ∧ (∃ table, n.world.Kept n.ringing n.clock table)
      ∧ ∀ e k, n.world.slots e = some k → k ∈ start.numbers settings log)
    ⟨rfl, ⟨_, World.kept_initial⟩, fun e k hk => ?_⟩ fun e _ log n hn ht ha => ?_).2.2 e k hk
  · cases e <;> cases hk
  · obtain ⟨rfl, ⟨table, hkept⟩, hmem⟩ := hn
    have hkept' : ((start.after settings log).perform settings e).world.Kept _ _ _ :=
      kept_perform hkept ht ha
    refine ⟨by simp [after_append], ⟨_, hkept'⟩, fun i k hk => ?_⟩
    rw [numbers_concat, List.mem_append]
    rcases (World.renews_perform settings e.time _ e.deed).slots i k hk with hk' | hle
    · exact .inl (hmem i k hk')
    · obtain ⟨n, hn, hnext⟩ := World.numbers_eq settings e.time
        (start.after settings log).world e.deed
      rw [hn, List.mem_range'_1, ← hnext]
      exact .inr ⟨hle, hkept'.lt_next hk⟩

end Moment

/-- While no alarm is about to ring, exactly the alarms in the slots are live. -/
theorem Alarms.Kept.live_iff {a : Alarms} {slots : Slots} {clock : Nat} {table : Timetable}
    (h : a.Kept slots [] clock table) (k : AlarmId) (e : Expiry) :
    a.schedule.live.lookup k = some e ↔ slots e = some k := by
  constructor
  · intro hl
    obtain ⟨deadline, ha⟩ := h.sound.schedule.armed_of_live hl
    exact (h.armed k e deadline ha).1
  · intro hs
    obtain ⟨deadline, -, ha | ⟨hr, -⟩⟩ := h.held k e hs
    · exact ha.1
    · cases hr

namespace World

/-- What an alarm is set for, while it is live. -/
def expiry? (w : World) (k : AlarmId) : Option Expiry := w.alarms.schedule.live.lookup k

variable {w : World} {id : SpriteId} {m : Member} {k : AlarmId}

theorem slots_message_iff : w.slots (.message id) = some k
    ↔ ∃ m b, w.cast.find? id = some m ∧ m.figure.bubble = some b ∧ b.alarm = k := by
  simp [slots, slotsOf, Cast.bubble?, Option.bind_eq_some_iff]

theorem slots_highlight_iff : w.slots (.highlight id) = some k
    ↔ ∃ m, w.cast.find? id = some m ∧ m.figure.highlight = some k := by
  simp [slots, slotsOf, Cast.highlight?, Option.bind_eq_some_iff]

theorem isSome_message_iff (hm : w.cast.find? id = some m) :
    m.figure.snapshot.message.isSome ↔ ∃ k, w.slots (.message id) = some k := by
  rw [slots_message hm, ← Option.isSome_iff_exists, Option.isSome_map]
  exact Bool.coe_iff_coe.2 (Option.isSome_map ..)

end World

namespace Course

variable (settings : Settings) (listening : Listening) (reactions : List Reaction)
  (ms : List Move)

/-- After any moves: the live alarms are exactly those in the slots of the registered sprites, each
with one deadline in the heap; a sprite shows a message exactly while its message has an alarm; and
of the alarms that were set no two had the same number, and the live ones are among them. -/
theorem alarms_fill_slots :
    (∀ k id, ((start listening reactions).run settings ms).engine.world.expiry? k
          = some (.message id)
        ↔ ∃ m b, ((start listening reactions).run settings ms).engine.world.cast.find? id = some m
          ∧ m.figure.bubble = some b ∧ b.alarm = k)
      ∧ (∀ k id, ((start listening reactions).run settings ms).engine.world.expiry? k
          = some (.highlight id)
        ↔ ∃ m, ((start listening reactions).run settings ms).engine.world.cast.find? id = some m
          ∧ m.figure.highlight = some k)
      ∧ (∀ k e, ((start listening reactions).run settings ms).engine.world.expiry? k = some e →
        ∃! deadline, ⟨deadline, k⟩
          ∈ ((start listening reactions).run settings ms).engine.world.alarms.schedule.heap.toList)
      ∧ (∀ id m, ((start listening reactions).run settings ms).engine.world.cast.find? id = some m →
        (m.figure.snapshot.message.isSome
          ↔ ∃ k, ((start listening reactions).run settings ms).engine.world.expiry? k
            = some (.message id)))
      ∧ (Moment.start.numbers settings ((start listening reactions).run settings ms).chronicle).Nodup
      ∧ ∀ k e, ((start listening reactions).run settings ms).engine.world.expiry? k = some e →
        k ∈ Moment.start.numbers settings ((start listening reactions).run settings ms).chronicle := by
  generalize hx : (start listening reactions).run settings ms = x
  have hlaw := lawful_run settings listening reactions ms
  have hagree := agrees_run settings listening reactions ms
  rw [hx] at hlaw hagree
  obtain ⟨table, hk⟩ := hlaw.exists_kept
  rw [hagree.world, hagree.ringing] at hk
  have hlive := hk.live_iff
  refine ⟨fun k id => ?_, fun k id => ?_, fun k e hl => ?_, fun id m hm => ?_, ?_, fun k e hl => ?_⟩
  · exact (hlive k _).trans World.slots_message_iff
  · exact (hlive k _).trans World.slots_highlight_iff
  · obtain ⟨deadline, ha⟩ := hk.sound.schedule.armed_of_live hl
    exact ⟨deadline, ha.2, fun d hd => hk.sound.schedule.deadline_eq ⟨hl, hd⟩ ha⟩
  · exact (World.isSome_message_iff hm).trans (exists_congr fun k => (hlive k _).symm)
  · obtain ⟨n, hn, -⟩ := Moment.numbers_eq settings x.chronicle Moment.start
    rw [hn]
    exact List.nodup_range'
  · refine hlaw.mem_numbers (e := e) ?_
    rw [hagree.world]
    exact (hlive k e).1 hl

end Course

end SpriteCanvas
