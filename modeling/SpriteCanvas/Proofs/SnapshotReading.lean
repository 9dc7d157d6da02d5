import SpriteCanvas.Proofs.Placement
import SpriteCanvas.Proofs.RecordReading
import SpriteCanvas.Proofs.WholeDoubles

/-!
# Snapshots survive their text

Reading clamps positions and wraps headings, but what is on the canvas and within one turn comes out
as it went in, to the last bit (`Point.clamped_of_onCanvas`, `Heading.ofDegrees_of_wrapped`).  So a
snapshot that is in place reads back from its text (`Snapshot.readWhole_toText`), and every snapshot
is that was taken of a sprite or read from a text.
-/

namespace SpriteCanvas

namespace Binary64

open Float.Model

/-- A double is known by its sign, its significand and its exponent. -/
theorem unpack_inj {x y : Float} (h : x.toModel.unpack = y.toModel.unpack) : x = y := by
  obtain ⟨⟨b, hb⟩⟩ := x
  obtain ⟨⟨c, hc⟩⟩ := y
  have hbits : b.toBitVec = c.toBitVec := (UnpackedFloat.unpack_inj_of_valid hb hc).1 h
  obtain rfl := UInt64.toBitVec_inj.1 hbits
  rfl

theorem not_lt_of_le {x y : Float} (h : x ≤ y) : ¬ y < x := by
  rw [le_iff, UnpackedFloat.le] at h
  rw [lt_iff, UnpackedFloat.lt, compare_swap]
  rcases hc : x.toModel.unpack.compare y.toModel.unpack with _ | _ | _ | _ <;> rw [hc] at h
  · cases h
  · decide
  · decide
  · cases h

theorem le_of_lt {x y : Float} (h : x < y) : x ≤ y := by
  rw [lt_iff, UnpackedFloat.lt] at h
  rw [le_iff, UnpackedFloat.le, eq_of_beq h]
  rfl

theorem not_le_of_lt {x y : Float} (h : x < y) : ¬ y ≤ x := by
  rw [lt_iff, UnpackedFloat.lt] at h
  rw [le_iff, UnpackedFloat.le, compare_swap, eq_of_beq h]
  decide

/-- What lies between two finite doubles is finite. -/
theorem isFinite_of_mem {x y : Float} (h0 : 0 ≤ x) (h : x ≤ y) (hy : y.isFinite = true) :
    x.isFinite = true := by
  have hfinite : y.toModel.unpack.isFinite = true := hy
  show x.toModel.unpack.isFinite = true
  rw [le_iff] at h0 h
  rw [unpack_zero] at h0
  rcases hx : x.toModel.unpack with s | _ | s | ⟨s, m, e, hm⟩ <;> rw [hx] at h0 h
  case infinity =>
    cases s with
    | negative => cases h0
    | positive =>
      rcases hu : y.toModel.unpack with t | _ | t | ⟨t, n, f, hn⟩ <;> rw [hu] at h hfinite <;>
        first | cases h | cases hfinite
  case notANumber => cases h0
  all_goals rfl

/-- A positive double below 360 is less than 360 of its units, which are smaller than one. -/
theorem lt_360 {x : Float} {m : Nat} {e : Int} {hm : 0 < m}
    (hx : x.toModel.unpack = .finite .positive m e hm) (h : x < 360) :
    e < 0 ∧ m < 360 * 2 ^ (-e).toNat := by
  obtain ⟨⟨-, hlt, -, -⟩, -⟩ := canonical_of_unpack hx
  rw [lt_iff, hx, unpack_360] at h
  have hor : some ((compare e (-44)).then (compare m (360 * 2 ^ 44))) = some .lt := eq_of_beq h
  rcases he : compare e (-44) with _ | _ | _ <;> rw [he] at hor
  · have hless : e < -44 := Int.compare_eq_lt.1 he
    refine ⟨by omega, ?_⟩
    calc m < 360 * 2 ^ 45 := Nat.lt_trans hlt (by decide)
      _ ≤ 360 * 2 ^ (-e).toNat :=
        Nat.mul_le_mul_left _ (Nat.pow_le_pow_right (by decide) (by omega))
  · obtain rfl := Int.compare_eq_eq.1 he
    exact ⟨by decide, Nat.compare_eq_lt.1 (Option.some.inj hor)⟩
  · cases hor

/-- A double from 0 to below 360 is its own remainder. -/
theorem remainder_of_lt {x : Float} (h0 : 0 ≤ x) (h : x < 360) : remainder x 360 = x := by
  have hfinite : x.toModel.unpack.isFinite = true :=
    isFinite_of_mem h0 (le_of_lt h) rfl
  rcases hx : x.toModel.unpack with s | _ | s | ⟨s, m, e, hm⟩ <;> rw [hx] at hfinite
  case zero => simp only [remainder, hx]
  case finite =>
    cases s with
    | negative =>
      rw [le_iff, unpack_zero, hx] at h0
      cases h0
    | positive =>
      obtain ⟨he, hlt⟩ := lt_360 hx h
      obtain ⟨hc, hle⟩ := canonical_of_unpack hx
      have hsame : remainder x 360
          = ofDyadic (UnpackedFloat.Sign.positive.apply m) e .positive := by
        rw [← Nat.mod_eq_of_lt hlt]
        simp only [remainder, hx, if_neg (Int.not_le.2 he)]
        push_cast
        rfl
      refine unpack_inj ?_
      rw [hsame, unpack_ofDyadic hc.pos hc.lt hc.le hle, hx]
      simp [hc.fitted_eq]
  all_goals cases hfinite

end Binary64

/-! ## What is in place stays as it is -/

theorem clampAxis_of_mem {x : Float} (h : 0 ≤ x ∧ x ≤ 100) : clampAxis x = x := by
  have hn : ¬ x.isNaN = true := Bool.eq_false_iff.1 (Binary64.isNaN_eq_false_of_le h.1)
  have hmin : ¬ x < canvasMin := Binary64.not_lt_of_le h.1
  have hmax : ¬ canvasMax < x := Binary64.not_lt_of_le h.2
  rw [clampAxis, if_neg hn, if_neg hmin, if_neg hmax]

theorem Point.clamped_of_onCanvas {p : Point} (h : p.OnCanvas) : clamped p.x p.y = p := by
  rw [clamped, clampAxis_of_mem h.1, clampAxis_of_mem h.2]

theorem Heading.isFinite_of_wrapped {x : Heading} (h : x.Wrapped) : x.degrees.isFinite = true :=
  Binary64.isFinite_of_mem h.1 (Binary64.le_of_lt h.2) rfl

theorem Heading.ofDegrees_of_wrapped {x : Heading} (h : x.Wrapped) : ofDegrees x.degrees = x := by
  have hwrap : wrap x.degrees = x.degrees := by
    rw [wrap, Binary64.remainder_of_lt h.1 h.2]
    exact if_neg (Binary64.not_lt_of_le h.1)
  rw [ofDegrees, if_pos (isFinite_of_wrapped h), hwrap]
  exact if_neg (Binary64.not_le_of_lt h.2)

/-! ## Reading what was written -/

open Json (DoublesReadBack Reads ReadsEntries)

theorem Point.reads_read {p : Point} (h : p.OnCanvas) (hback : DoublesReadBack p.toJson.numbers)
    (depth : Nat) : Reads (read (depth + 1)) p p.toJson := by
  have hx : Reads Json.readFloat p.x (.ofFloat p.x) :=
    Json.reads_readFloat (Binary64.isFinite_of_mem h.1.1 h.1.2 rfl)
      (hback.of_mem_entries (List.mem_of_getElem? (i := 0) rfl))
  have hy : Reads Json.readFloat p.y (.ofFloat p.y) :=
    Json.reads_readFloat (Binary64.isFinite_of_mem h.2.1 h.2.2 rfl)
      (hback.of_mem_entries (List.mem_of_getElem? (i := 1) rfl))
  have hfields : ReadsEntries shape depth [] shape.initial
      [("x", .ofFloat p.x), ("y", .ofFloat p.y)] p :=
    .cons (.field rfl rfl (hx.mapRead _)) <|
    .cons (.field rfl rfl (hy.mapRead _)) <|
    .nil rfl
  have hread : Reads (read (depth + 1)) (clamped p.x p.y) p.toJson :=
    (Json.reads_readRecord hfields).mapRead fun p => clamped p.x p.y
  rwa [clamped_of_onCanvas h] at hread

theorem Heading.reads_read {x : Heading} (h : x.Wrapped) (hback : DoublesReadBack x.toJson.numbers)
    (depth : Nat) : Reads (read depth) x x.toJson := by
  have hread := (Json.reads_readFloat (isFinite_of_wrapped h) hback).mapRead ofDegrees
  rwa [ofDegrees_of_wrapped h] at hread

theorem Facing.reads_read (f : Facing) (depth : Nat) : Reads (read depth) f f.toJson := by
  cases f <;> exact Json.reads_readVariant depth rfl

namespace Snapshot

variable {s : Snapshot}

theorem toJson_eq (s : Snapshot) : s.toJson = .object
    [("position", s.position.toJson), ("rotation", s.heading.toJson), ("facing", s.facing.toJson),
      ("message", s.message.elim .null .text), ("highlighted", .bool s.highlighted),
      ("in_timed_loop", .bool s.looping)] := by
  rcases s with ⟨_, _, _, _ | _, _, _⟩ <;> rfl

/-- A snapshot that is in place reads back, if its doubles do. -/
theorem reads_read (h : s.Placed) (hback : DoublesReadBack s.toJson.numbers) (depth : Nat) :
    Reads (read (depth + 2)) s s.toJson := by
  have hposition := Point.reads_read h.position
    (hback.of_mem_entries (List.mem_of_getElem? (i := 0) rfl)) depth
  have hheading := Heading.reads_read h.heading
    (hback.of_mem_entries (List.mem_of_getElem? (i := 1) rfl)) (depth + 1)
  have hfields : ReadsEntries shape (depth + 1) [] shape.initial
      [("position", s.position.toJson), ("rotation", s.heading.toJson),
        ("facing", s.facing.toJson),
        ("message", s.message.elim .null .text),
        ("highlighted", .bool s.highlighted), ("in_timed_loop", .bool s.looping)] s :=
    .cons (.field rfl rfl (hposition.mapRead _)) <|
    .cons (.field rfl rfl (hheading.mapRead _)) <|
    .cons (.field rfl rfl ((s.facing.reads_read _).mapRead _)) <|
    .cons (.field rfl rfl ((Json.reads_readOptionalText s.message).mapRead _)) <|
    .cons (.field rfl rfl ((Json.reads_readFlag s.highlighted).mapRead _)) <|
    .cons (.field rfl rfl ((Json.reads_readFlag s.looping).mapRead _)) <|
    .nil rfl
  rw [toJson_eq]
  exact Json.reads_readRecord hfields

/-- The text of a snapshot that is in place reads as that snapshot, if its doubles read back. -/
theorem readWhole_toText (h : s.Placed) (hback : DoublesReadBack s.toJson.numbers) :
    Json.readWhole (read Json.maxDepth) s.toText = .ok s := by
  refine Json.readWhole_eq_ok.2 ⟨[], ?_, rfl⟩
  rw [toText, Json.write, String.toList_ofList, ← List.append_nil (Json.chars _)]
  exact (reads_read h hback _).2 [] trivial

end Snapshot

/-! ## Snapshots that were taken -/

/-- A host that asks for a registered sprite gets a snapshot, and a text that reads as this
snapshot if its doubles read back. -/
def World.SnapshotsSurvive (settings : Settings) (now : Nat) (w : World) : Prop :=
  ∀ id, (w.cast.find? id).isSome = true → ∃ s text,
    (w.reply settings now (.snapshot id)).answer = .snapshot (some s)
      ∧ (w.reply settings now (.snapshotText id)).answer = .text (some text)
      ∧ (DoublesReadBack s.toJson.numbers →
        Json.readWhole (Snapshot.read Json.maxDepth) text = .ok s)

theorem World.snapshotsSurvive_of_placed {w : World} (h : w.cast.Placed) (settings : Settings)
    (now : Nat) : w.SnapshotsSurvive settings now := by
  intro id hid
  obtain ⟨m, hm⟩ := Option.isSome_iff_exists.1 hid
  refine ⟨m.figure.snapshot, m.figure.snapshot.toText, ?_, ?_, Snapshot.readWhole_toText
    (h id m hm).snapshot⟩
  · rw [reply, hm]
    rfl
  · rw [reply, hm]
    rfl

namespace Moment

/-- At every moment of a chronicle everybody is in place. -/
theorem placed_of_orderly {settings : Settings} {pre post : List Entry}
    (ho : start.Orderly settings [] (pre ++ post))
    (hcalls : ∀ t c, ⟨t, .answer c⟩ ∈ pre ++ post → c.WellPlaced) :
    (start.after settings pre).world.cast.Placed := by
  have hstart : start.world.cast.Placed := nofun
  exact (placed_after hstart (List.forall_mem_nil Notice.Placed)
    ((orderly_append settings _ _ _ _).1 ho).1
    fun t c h => hcalls t c (List.mem_append_left post h)).1

end Moment

namespace Course

/-- Whatever doubles a host calls with, at every moment of the chronicle and in the state that it
comes to the text of each sprite's snapshot reads as this snapshot; and a snapshot that was read
from any text reads back from its own text, and is written as that text again.  All this if the
doubles in the snapshot read back. -/
theorem snapshots_survive (settings : Settings) (listening : Listening)
    (reactions : List Reaction) (ms : List Move)
    (hms : ∀ c, .call c ∈ ms → c.WellPlaced) (hr : ∀ r ∈ reactions, r.call.WellPlaced) :
    (∀ pre post, ((start listening reactions).run settings ms).chronicle = pre ++ post →
        ∀ now, (Moment.start.after settings pre).world.SnapshotsSurvive settings now)
      ∧ (∀ now, ((start listening reactions).run settings ms).engine.world.SnapshotsSurvive
          settings now)
      ∧ ∀ text s, Json.readWhole (Snapshot.read Json.maxDepth) text = .ok s →
        DoublesReadBack s.toJson.numbers →
        ∃ s', Json.readWhole (Snapshot.read Json.maxDepth) s.toText = .ok s' ∧ s' = s
          ∧ s'.toText = s.toText := by
  have hcalls := answers_run settings listening hms hr
  have ho := (delivers_run settings listening reactions ms).orderly
  have hmoment : ∀ pre post, ((start listening reactions).run settings ms).chronicle = pre ++ post →
      (Moment.start.after settings pre).world.cast.Placed := by
    intro pre post hc
    rw [hc] at ho hcalls
    exact Moment.placed_of_orderly ho hcalls
  refine ⟨fun pre post hc => World.snapshotsSurvive_of_placed (hmoment pre post hc) settings, ?_,
    fun text s hs hback => ?_⟩
  · have hend := hmoment _ [] (List.append_nil _).symm
    rw [(agrees_run settings listening reactions ms).world] at hend
    exact World.snapshotsSurvive_of_placed hend settings
  · have hplaced := Snapshot.placed_of_readWhole hs
    exact ⟨s, Snapshot.readWhole_toText hplaced hback, rfl, rfl⟩

/-- A snapshot beyond the corner that points a little to the left of one turn. -/
def strayText : String :=
  "\x7b\"position\":[-3,1e3],\"rotation\":-1e-20,\"facing\":\"Reverse\"," ++
    "\"in_timed_loop\":false,\"highlighted\":true,\"message\":\"\\u00e4\"\x7d"

/-- A sprite at negative zero and at a tenth survives, and so does what is read from `strayText`. -/
theorem snapshots_survive_negative_zero :
    (∃ text, (((start .recording []).run .default
          [.call (.register "a" (.clamped (-0) 0.1) [] "t")]).engine.world.reply .default 7
            (.snapshotText "a")).answer = .text (some text)
        ∧ Json.readWhole (Snapshot.read Json.maxDepth) text
          = .ok (Figure.new (.clamped (-0) 0.1)).snapshot)
      ∧ ∃ s, Json.readWhole (Snapshot.read Json.maxDepth) strayText = .ok s
        ∧ s.position = ⟨0, 100⟩ ∧ s.heading = .zero
        ∧ Json.readWhole (Snapshot.read Json.maxDepth) s.toText = .ok s := by
  have hsurvive := snapshots_survive .default .recording []
    [.call (.register "a" (.clamped (-0) 0.1) [] "t")] (fun c hc => by
      cases List.mem_singleton.1 hc
      exact ⟨_, _, rfl⟩) (List.forall_mem_nil _)
  constructor
  · have hworld := (Scene.perform_quiet .default 0 (s := (start .recording []).engine.scene) rfl
      (.answer (.register "a" (.clamped (-0) 0.1) [] "t"))).1
    have hempty : Cast.empty.find? "a" = none := rfl
    have hfind := (congrArg (fun w : World => w.cast.find? "a") hworld).trans
      (Cast.find?_register_of_none hempty "t" (.clamped (-0) 0.1) [])
    have hback : ∀ n ∈ (Figure.new (.clamped (-0) 0.1)).snapshot.toJson.numbers, n.ReadsBack := by
      decide +kernel
    obtain ⟨s, text, hs, htext, hread⟩ := hsurvive.2.1 7 "a" (Option.isSome_of_eq_some hfind)
    have hsnapshot := (congrArg (Option.map fun m : Member => m.figure.snapshot) hfind).symm.trans
      (Answer.snapshot.inj hs)
    obtain rfl := Option.some.inj hsnapshot
    exact ⟨text, htext, hread fun x hx hmem => hback _ hmem⟩
  · have hcheck : ((Json.readWhole (Snapshot.read Json.maxDepth) strayText).toOption.elim false
        fun s => decide ((∀ n ∈ s.toJson.numbers, n.ReadsBack) ∧ s.position = ⟨0, 100⟩
          ∧ s.heading = .zero)) = true := by
      decide +kernel
    rcases hs : Json.readWhole (Snapshot.read Json.maxDepth) strayText with fault | s
    · rw [hs] at hcheck
      cases hcheck
    · rw [hs] at hcheck
      obtain ⟨hdoubles, hposition, hheading⟩ := of_decide_eq_true hcheck
      obtain ⟨s', hs', rfl, -⟩ := hsurvive.2.2 strayText s hs fun x hx hmem => hdoubles _ hmem
      exact ⟨s', rfl, hposition, hheading, hs'⟩

end Course

end SpriteCanvas
