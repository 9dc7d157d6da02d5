import SpriteCanvas.Proofs.Moment
import SpriteCanvas.Proofs.Slots

/-!
# The timetable of a chronicle

Speaking and being struck put a time into the timetable, a stop and a removal take times out, and
nothing else changes it (`World.retimed`).  While things happen as they may, the world keeps its
timetable (`Moment.kept_perform`).
-/

namespace SpriteCanvas

/-- The sprites of pairs, one pair after the other. -/
def eachOf (pairs : List (SpriteId × SpriteId)) : List SpriteId := pairs.flatMap fun p => [p.1, p.2]

/-- What a deed itself does to a timetable, apart from strikes. -/
def Deed.retime (settings : Settings) (now : Nat) (table : Timetable) : Deed → Timetable
  | .execute r b => b.command.retime settings now r.id table
  | .answer .stop => fun e => if e.isMessage then none else table e
  | .answer (.unregister id) => fun e => if e.sprite = id then none else table e
  | _ => table

namespace World

variable (settings : Settings) (now : Nat) (w : World)

/-- The sprites that are struck in a deed, one after the other. -/
def struck : Deed → List SpriteId
  | .answer .checkAll => eachOf (w.touchingPairs settings)
  | .answer .drainChecks | .drain _ => eachOf (w.waitingPairs settings)
  | .execute r b =>
    match w.cast.find? r.id with
    | some m =>
      if scansAfter m b.command then
        eachOf ((w.apply settings now m b.command).touchingPairs settings)
      else []
    | none => []
  | _ => []

def retimed (d : Deed) (table : Timetable) : Timetable :=
  relit w.cast (settings.dark now) (w.struck settings now d)
    (d.retime settings now table)

variable {settings now w} {ringing : List (AlarmId × Expiry)} {clock : Nat} {table : Timetable}
  {id : SpriteId} {m : Member}

theorem kept_execute (h : w.Kept ringing clock table) {r : Role} (hm : w.cast.find? r.id = some m)
    (b : Block) : (w.execute settings now m b.command).1.Kept ringing clock
      (w.retimed settings now (.execute r b) table) := by
  have hk := kept_apply settings now h hm b.command
  have hr := (apply_redraws settings now w m b.command).redrawn
  unfold execute
  dsimp only
  simp only [retimed, struck, hm]
  split
  · rw [← relit_congr hr]
    exact kept_strikeAll settings now _ hk
  · rw [relit_nil]
    exact hk

theorem retimed_of_struck_nil {d : Deed} (h : w.struck settings now d = []) :
    w.retimed settings now d table = d.retime settings now table := by
  rw [retimed, h, relit_nil]

theorem kept_reply (h : w.Kept ringing clock table) (c : Call) :
    (w.reply settings now c).world.Kept ringing clock
      (w.retimed settings now (.answer c) table) := by
  have hsame : w.struck settings now (.answer c) = [] →
      (w.reply settings now c).world.Kept ringing clock
        ((Deed.answer c).retime settings now table) →
      (w.reply settings now c).world.Kept ringing clock
        (w.retimed settings now (.answer c) table) := fun hs hk => by
    rw [retimed_of_struck_nil hs]
    exact hk
  cases c with
  | register id position script target =>
    exact hsame rfl (h.congr rfl (Cast.bubble?_register target position script)
      (Cast.highlight?_register target position script))
  | unregister id => exact hsame rfl (kept_unregister h id)
  | setPosition id position =>
    exact hsame rfl (h.redraws rfl (Cast.redraws_update (fun f => { f with position := position })
      Figure.ShowsAs.refl fun g => ⟨rfl, rfl⟩))
  | setScript id script =>
    exact hsame rfl (h.congr rfl (Cast.bubble?_setScript script) (Cast.highlight?_setScript script))
  | queueCheck id =>
    refine hsame rfl ?_
    unfold reply
    dsimp only
    split <;> exact h
  | checkAll => exact kept_strikeAll settings now _ h
  | drainChecks => exact kept_strikeAll (w := { w with checks := .empty }) settings now _ h
  | stop => exact hsame rfl (kept_hushAll (w := { w with runs := w.runs.stop }) h)
  | _ => exact hsame rfl h

end World

/-- Whatever happens as it may, the world keeps its timetable. -/
theorem Moment.kept_perform {settings : Settings} {n : Moment} {e : Entry} {table : Timetable}
    (h : n.world.Kept n.ringing n.clock table) (ht : n.clock ≤ e.time) (ha : n.Allows e.deed) :
    (n.perform settings e).world.Kept (n.perform settings e).ringing e.time
      (n.world.retimed settings e.time e.deed table) := by
  obtain ⟨now, d⟩ := e
  have hk := Alarms.Kept.mono h ht
  have hsame : n.world.struck settings now d = [] →
      (n.world.perform settings now d).1.Kept (n.ringingAfter now d) now
        (d.retime settings now table) →
      (n.world.perform settings now d).1.Kept (n.ringingAfter now d) now
        (n.world.retimed settings now d table) := fun hs hk => by
    rw [World.retimed_of_struck_nil hs]
    exact hk
  cases d with
  | answer c => exact World.kept_reply hk c
  | tell n => exact hsame rfl hk
  | leave r => exact hsame rfl hk
  | finish run => exact hsame rfl hk
  | begin run =>
    refine hsame rfl ?_
    simp only [World.perform]
    split <;> exact hk
  | execute r b =>
    obtain ⟨-, hcur, -⟩ := ha
    obtain ⟨m, hm⟩ := Cast.find?_of_isCurrent hcur
    simp only [Moment.perform, World.perform, hm]
    exact World.kept_execute hk hm b
  | mark r looping => exact hsame rfl (World.kept_setLooping hk r.id r.generation looping)
  | drain r =>
    exact World.kept_strikeAll (w := { n.world with checks := .empty }) settings now _ hk
  | collect =>
    refine hsame rfl ?_
    have h0 : n.ringing = [] := ha
    rw [h0] at h
    exact Alarms.Kept.collect h ht
  | ring alarm expiry =>
    obtain ⟨rest, hr⟩ := ha
    refine hsame rfl ?_
    rw [hr] at hk
    show (n.world.ring alarm expiry).1.Kept n.ringing.tail now _
    rw [hr]
    exact World.kept_ring hk

theorem Moment.Lawful.exists_kept {settings : Settings} {log : List Entry}
    (h : Moment.start.Lawful settings log) : ∃ table : Timetable,
      (Moment.start.after settings log).world.Kept (Moment.start.after settings log).ringing
        (Moment.start.after settings log).clock table := by
  refine h.induction (P := fun _ n => ∃ table : Timetable, n.world.Kept n.ringing n.clock table)
    ⟨fun _ => none, World.kept_initial⟩ fun e _ _ n hn ht ha => ?_
  obtain ⟨table, hk⟩ := hn
  exact ⟨_, Moment.kept_perform hk ht ha⟩

end SpriteCanvas
