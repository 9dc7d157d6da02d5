import SpriteCanvas.Proofs.Contacts
import SpriteCanvas.Proofs.Undelivered

/-!
# What a scan does

A scan strikes every sprite once for each sprite near it, and nothing else changes.  The host is
told of both sprites of each near pair, in the order of the names, how each was right after that
strike (`World.Scanned`).  A move outside a loop is a walk, an update of the sprite that walked and
a scan, and a second scan turns everybody back; all this wherever any moves come to
(`Course.scan_law`).
-/

namespace SpriteCanvas

namespace World

/-- How many sprites are near a sprite. -/
def contacts (settings : Settings) (w : World) (id : SpriteId) : Nat :=
  (w.cast.near settings.detector id).length

/-- What a scan of a world comes to: its new world, what the host is told and the count. -/
structure Scanned (settings : Settings) (now : Nat) (w : World) (r : Reply) : Prop where
  struck : w.Struck (settings.dark now) (w.contacts settings) r.world
  turned : ∀ m ∈ w.cast.members, ∀ m', r.world.cast.find? m.id = some m' →
    (m'.figure.facing ≠ m.figure.facing ↔ w.contacts settings m.id % 2 = 1)
  highlighted : ∀ m ∈ w.cast.members, ∀ m', r.world.cast.find? m.id = some m' →
    (m'.figure.highlight.isSome ↔ m.figure.highlight.isSome ∨ 0 < w.contacts settings m.id)
  /-- The pairs that are found are the near ones, each once and with the smaller name first. -/
  mem_pairs : ∀ a b, (a, b) ∈ w.touchingPairs settings
    ↔ a < b ∧ b ∈ w.cast.near settings.detector a
  inOrder : (w.touchingPairs settings).Pairwise (Prod.Lex (· < ·) (· < ·))
  answer : r.answer = .count (w.touchingPairs settings).length
  /-- The host is told of both sprites of a pair, when each was struck once more than by the pairs
  before. -/
  notices : r.notices = (w.touchingPairs settings).zipIdx.flatMap fun p =>
    w.struckNotice p.1.1 ((eachOf ((w.touchingPairs settings).take p.2)).count p.1.1 + 1)
      ++ w.struckNotice p.1.2 ((eachOf ((w.touchingPairs settings).take p.2)).count p.1.2 + 1)
  length_notices : r.notices.length = 2 * (w.touchingPairs settings).length

variable {settings : Settings} {now : Nat} {w w' : World} {deadline : Nat}
  {times : SpriteId → Nat} {ringing : List (AlarmId × Expiry)} {clock : Nat} {table : Timetable}

/-- Nobody moves when sprites are struck. -/
theorem Struck.near_eq (h : w.Struck deadline times w') (d : Detector) :
    w'.cast.near d = w.cast.near d :=
  (congrArg (Cast.near d) h.cast).trans (Cast.near_mapFigures fun _ => rfl)

theorem Struck.contacts_eq (h : w.Struck deadline times w') :
    w'.contacts settings = w.contacts settings := by
  funext id
  rw [contacts, contacts, h.near_eq]

theorem scanned (now : Nat) (h : w.Kept ringing clock table) :
    w.Scanned settings now (w.reply settings now .checkAll) := by
  have hall := struck_strikeAll settings now (eachOf (w.touchingPairs settings)) h
  have hstruck : w.Struck (settings.dark now) (w.contacts settings)
      (w.reply settings now .checkAll).world := by
    simp only [touchingPairs, Cast.count_pairs] at hall
    exact hall
  refine ⟨hstruck, fun m hm m' => hstruck.facing_ne_iff hm,
    fun m hm m' => hstruck.isSome_highlight_iff hm, fun a b => Cast.mem_pairs_iff,
    Cast.pairs_sorted _ _, rfl,
    notices_strikePairs settings now _ (fun p => Cast.ne_of_mem_pairs) h,
    length_notices_strikePairs settings now fun p hp => ?_⟩
  have hnear := (Cast.mem_pairs_iff.1 hp).2
  exact ⟨Cast.mem_ids_of_mem_near (Cast.mem_near_comm.1 hnear), Cast.mem_ids_of_mem_near hnear⟩

/-- A second scan turns everybody back. -/
theorem facing?_of_two_scans (now later : Nat) (h : w.Kept ringing clock table) (id : SpriteId) :
    ((w.reply settings now .checkAll).world.reply settings later .checkAll).world.cast.facing? id
      = w.cast.facing? id := by
  have hkept : (w.reply settings now .checkAll).world.Kept ringing clock _ :=
    kept_strikeAll settings now (eachOf (w.touchingPairs settings)) h
  have hfirst : w.Struck _ (w.contacts settings) _ := (scanned now h).struck
  have hsecond : Struck _ (contacts settings _) _ _ := (scanned later hkept).struck
  have htwice : ∀ f, Facing.flip^[w.contacts settings id] (Facing.flip^[w.contacts settings id] f)
      = f := fun f => by
    rw [← Function.iterate_add_apply, ← Nat.two_mul, Facing.iterate_flip_two_mul]
  rw [hsecond.facing?_eq, hfirst.facing?_eq, hfirst.contacts_eq, Option.map_map]
  rcases w.cast.facing? id with _ | f
  · rfl
  · exact congrArg some (htwice f)

/-! ## Moves outside loops -/

section Walk

variable {r : Role} {b : Block} {m : Member} {steps : Float}

theorem apply_move (settings : Settings) (now : Nat) (hloop : m.figure.looping = false)
    (w : World) :
    w.apply settings now m (.move steps) = w.updateFigure m.id (·.walk steps) := by
  simp [apply, hloop]

theorem kept_walk (h : w.Kept ringing clock table) (hm : w.cast.find? r.id = some m)
    (hloop : m.figure.looping = false) :
    (w.updateFigure m.id (·.walk steps)).Kept ringing clock table :=
  apply_move .default clock hloop w ▸ kept_apply .default clock h hm (.move steps)

/-- A move outside a loop is a walk, an update of the sprite and a scan. -/
theorem perform_move (settings : Settings) (now : Nat) (hm : w.cast.find? r.id = some m)
    (hloop : m.figure.looping = false) (hb : b.command = .move steps) :
    w.perform settings now (.execute r b)
      = (((w.updateFigure m.id (·.walk steps)).reply settings now .checkAll).world,
        .update ⟨m.id, m.target, [.position], (m.figure.walk steps).snapshot⟩
          :: ((w.updateFigure m.id (·.walk steps)).reply settings now .checkAll).notices) := by
  have hnotice : (w.updateFigure m.id (·.walk steps)).notice m.id (changesOf (.move steps))
      = [.update ⟨m.id, m.target, [.position], (m.figure.walk steps).snapshot⟩] := by
    rw [notice, updateFigure, Cast.find?_update_self, Cast.id_of_find? hm, hm]
    rfl
  simp only [perform, hm, hb, execute, apply_move settings now hloop, hnotice, scansAfter, hloop]
  rfl

end Walk

/-- What a scan does, and what contains one: a request for a scan, a move outside a loop, which is
a walk, an update of the sprite and then a scan, and a second scan, which turns everybody back.  Of
all this the host is told, in order. -/
structure ScanLaw (settings : Settings) (now : Nat) (w : World) : Prop where
  scanned : w.Scanned settings now (w.reply settings now .checkAll)
  moved : ∀ r b m steps, w.cast.find? r.id = some m → m.figure.looping = false →
    b.command = .move steps →
    w.perform settings now (.execute r b)
        = (((w.updateFigure m.id (·.walk steps)).reply settings now .checkAll).world,
          .update ⟨m.id, m.target, [.position], (m.figure.walk steps).snapshot⟩
            :: ((w.updateFigure m.id (·.walk steps)).reply settings now .checkAll).notices)
      ∧ (w.updateFigure m.id (·.walk steps)).Scanned settings now
        ((w.updateFigure m.id (·.walk steps)).reply settings now .checkAll)
  turnedBack : ∀ later id, ((w.reply settings now .checkAll).world.reply settings later
    .checkAll).world.cast.facing? id = w.cast.facing? id
  told : ∀ d a, ((w.perform settings now d).2.map fun n => Entry.mk now (.tell n)).Sublist
    (Scene.log settings now [d] ⟨w, a⟩)

theorem scanLaw (now : Nat) (h : w.Kept ringing clock table) : w.ScanLaw settings now where
  scanned := scanned now h
  moved _ _ _ _ hm hloop hb :=
    ⟨perform_move settings now hm hloop hb, scanned now (kept_walk h hm hloop)⟩
  turnedBack later id := facing?_of_two_scans now later h id
  told d a := Scene.sublist_log settings now d ⟨w, a⟩

end World

namespace Course

/-- The world after so many entries of the chronicle. -/
def worldAt (settings : Settings) (x : Course) (n : Nat) : World :=
  (Moment.start.after settings (x.chronicle.take n)).world

theorem exists_kept_worldAt (settings : Settings) (listening : Listening)
    (reactions : List Reaction) (ms : List Move) (n : Nat) :
    ∃ ringing clock table, (((start listening reactions).run settings ms).worldAt settings n).Kept
      ringing clock table := by
  have hlaw := lawful_run settings listening reactions ms
  rw [← List.take_append_drop n ((start listening reactions).run settings ms).chronicle] at hlaw
  exact ⟨_, _, ((Moment.lawful_append settings _ _ _).1 hlaw).1.exists_kept⟩

theorem worldAt_length (settings : Settings) (listening : Listening) (reactions : List Reaction)
    (ms : List Move) :
    ((start listening reactions).run settings ms).worldAt settings
        ((start listening reactions).run settings ms).chronicle.length
      = ((start listening reactions).run settings ms).engine.world := by
  rw [worldAt, List.take_length]
  exact (agrees_run settings listening reactions ms).world

/-- Wherever any moves come to, and at any time on the way there, a request for a scan and a move
outside a loop do what a scan does. -/
theorem scan_law (settings : Settings) (listening : Listening) (reactions : List Reaction)
    (ms : List Move) (now : Nat) :
    ((start listening reactions).run settings ms).engine.world.ScanLaw settings now
      ∧ ∀ n, (((start listening reactions).run settings ms).worldAt settings n).ScanLaw
        settings now := by
  have hall : ∀ n, (((start listening reactions).run settings ms).worldAt settings n).ScanLaw
      settings now := fun n => by
    obtain ⟨ringing, clock, table, h⟩ := exists_kept_worldAt settings listening reactions ms n
    exact World.scanLaw now h
  exact ⟨worldAt_length settings listening reactions ms ▸ hall _, hall⟩

end Course

end SpriteCanvas
