import SpriteCanvas.Proofs.Frame
import SpriteCanvas.Proofs.Timetable

/-!
# What a world shows for a time

The bubble and the highlight of a sprite are its two slots.  Every operation of a world sets the
slots of those who speak or are struck, empties those of a stop, a removal or an alarm that rings,
and leaves all others, and it does the same to the alarms; so a timetable is kept
(`World.kept_strikeAll`, `World.kept_apply`, `World.kept_hushAll`, `World.kept_unregister`,
`World.kept_ring`).
-/

namespace SpriteCanvas

namespace Cast

/-- The message of a sprite, if it is registered and shows one. -/
def bubble? (c : Cast) (id : SpriteId) : Option Bubble := (c.find? id).bind (·.figure.bubble)

/-- The highlight of a sprite, if it is registered and lit. -/
def highlight? (c : Cast) (id : SpriteId) : Option AlarmId := (c.find? id).bind (·.figure.highlight)

variable {c c' : Cast} {R : Figure → Figure → Prop} {id : SpriteId} {m : Member}

theorem Redraws.bubble?_eq (h : c.Redraws R c') (hR : ∀ f g, R f g → g.bubble = f.bubble) :
    c'.bubble? = c.bubble? := by
  obtain ⟨f, rfl, hf⟩ := h
  funext id
  unfold bubble?
  rw [find?_mapFigures]
  rcases c.find? id with _ | m
  · rfl
  · exact hR _ _ (hf m)

theorem Redraws.highlight?_eq (h : c.Redraws R c') (hR : ∀ f g, R f g → g.highlight = f.highlight) :
    c'.highlight? = c.highlight? := by
  obtain ⟨f, rfl, hf⟩ := h
  funext id
  unfold highlight?
  rw [find?_mapFigures]
  rcases c.find? id with _ | m
  · rfl
  · exact hR _ _ (hf m)

theorem bubble?_update {f : Figure → Figure} {o : Option Bubble} (hm : c.find? id = some m)
    (hf : ∀ g, (f g).bubble = o) : (c.update id f).bubble? = Function.update c.bubble? id o := by
  funext i
  unfold bubble?
  by_cases hi : i = id
  · subst hi
    rw [find?_update_self, hm, Function.update_self]
    exact hf m.figure
  · rw [find?_update_of_ne hi, Function.update_of_ne hi]

theorem highlight?_update {f : Figure → Figure} {o : Option AlarmId} (hm : c.find? id = some m)
    (hf : ∀ g, (f g).highlight = o) :
    (c.update id f).highlight? = Function.update c.highlight? id o := by
  funext i
  unfold highlight?
  by_cases hi : i = id
  · subst hi
    rw [find?_update_self, hm, Function.update_self]
    exact hf m.figure
  · rw [find?_update_of_ne hi, Function.update_of_ne hi]

theorem bubble?_update_of_same {f : Figure → Figure} (hf : ∀ g, (f g).bubble = g.bubble) :
    (c.update id f).bubble? = c.bubble? :=
  (redraws_update (R := fun g g' => g'.bubble = g.bubble) f (fun _ => rfl) hf).bubble?_eq
    fun _ _ h => h

theorem highlight?_update_of_same {f : Figure → Figure}
    (hf : ∀ g, (f g).highlight = g.highlight) : (c.update id f).highlight? = c.highlight? :=
  (redraws_update (R := fun g g' => g'.highlight = g.highlight) f (fun _ => rfl) hf).highlight?_eq
    fun _ _ h => h

theorem bubble?_register (target : String) (position : Point) (script : Script) :
    (c.register id target position script).2.bubble? = c.bubble? := by
  funext i
  unfold bubble?
  by_cases hi : i = id
  · subst hi
    rcases h : c.find? i with _ | m
    · rw [find?_register_of_none h]
      rfl
    · rw [find?_register_of_some h]
      rfl
  · rw [find?_register_of_ne hi]

theorem highlight?_register (target : String) (position : Point) (script : Script) :
    (c.register id target position script).2.highlight? = c.highlight? := by
  funext i
  unfold highlight?
  by_cases hi : i = id
  · subst hi
    rcases h : c.find? i with _ | m
    · rw [find?_register_of_none h]
      rfl
    · rw [find?_register_of_some h]
      rfl
  · rw [find?_register_of_ne hi]

theorem bubble?_setScript (script : Script) : (c.setScript id script).2.bubble? = c.bubble? := by
  funext i
  unfold bubble?
  by_cases hi : i = id
  · subst hi
    rw [find?_setScript_self]
    rcases c.find? i with _ | m <;> rfl
  · rw [find?_setScript_of_ne hi]

theorem highlight?_setScript (script : Script) :
    (c.setScript id script).2.highlight? = c.highlight? := by
  funext i
  unfold highlight?
  by_cases hi : i = id
  · subst hi
    rw [find?_setScript_self]
    rcases c.find? i with _ | m <;> rfl
  · rw [find?_setScript_of_ne hi]

end Cast

def slotsOf (bubbles : SpriteId → Option Bubble) (highlights : SpriteId → Option AlarmId) : Slots
  | .message id => (bubbles id).map (·.alarm)
  | .highlight id => highlights id

section slotsOf

variable (bubbles : SpriteId → Option Bubble) (highlights : SpriteId → Option AlarmId)
  (id : SpriteId)

theorem slotsOf_update_bubble (o : Option Bubble) :
    slotsOf (Function.update bubbles id o) highlights
      = Function.update (slotsOf bubbles highlights) (.message id) (o.map (·.alarm)) := by
  funext e
  cases e with
  | message i =>
    by_cases hi : i = id
    · subst hi
      simp [slotsOf]
    · have hne : Expiry.message i ≠ .message id := fun h => hi (Expiry.message.inj h)
      rw [Function.update_of_ne hne, slotsOf, slotsOf, Function.update_of_ne hi]
  | highlight i =>
    have hne : Expiry.highlight i ≠ .message id := nofun
    rw [Function.update_of_ne hne, slotsOf, slotsOf]

theorem slotsOf_update_highlight (o : Option AlarmId) :
    slotsOf bubbles (Function.update highlights id o)
      = Function.update (slotsOf bubbles highlights) (.highlight id) o := by
  funext e
  cases e with
  | message i =>
    have hne : Expiry.message i ≠ .highlight id := nofun
    rw [Function.update_of_ne hne, slotsOf, slotsOf]
  | highlight i =>
    by_cases hi : i = id
    · subst hi
      simp [slotsOf]
    · have hne : Expiry.highlight i ≠ .highlight id := fun h => hi (Expiry.highlight.inj h)
      rw [Function.update_of_ne hne, slotsOf, slotsOf, Function.update_of_ne hi]

end slotsOf

/-- When a highlight is over that was lit at a time. -/
abbrev Settings.dark (settings : Settings) (t : Nat) : Nat :=
  Duration.deadline settings.clockStart t settings.highlightTime

/-- What a command says, and until when. -/
def Command.speech? (settings : Settings) (now : Nat) : Command → Option (String × Nat)
  | .say text secs | .think text secs =>
    some (text, Duration.deadline settings.clockStart now (Duration.ofSeconds secs))
  | _ => none

def Command.retime (c : Command) (settings : Settings) (now : Nat) (id : SpriteId)
    (table : Timetable) : Timetable :=
  match c.speech? settings now with
  | some speech => Function.update table (.message id) (some speech.2)
  | none => table

def Expiry.isMessage : Expiry → Bool
  | message _ => true
  | highlight _ => false

/-- Both figures show the same message and highlight. -/
def Figure.ShowsAs (f g : Figure) : Prop := g.bubble = f.bubble ∧ g.highlight = f.highlight

theorem Figure.ShowsAs.refl (f : Figure) : f.ShowsAs f := ⟨rfl, rfl⟩

namespace World

def slots (w : World) : Slots := slotsOf w.cast.bubble? w.cast.highlight?

/-- A world keeps a timetable. -/
abbrev Kept (w : World) : List (AlarmId × Expiry) → Nat → Timetable → Prop := w.alarms.Kept w.slots

variable {w w' : World} {ringing : List (AlarmId × Expiry)} {clock : Nat} {table : Timetable}
  {id : SpriteId} {m : Member}

theorem kept_of_slots {bubbles : SpriteId → Option Bubble} {highlights : SpriteId → Option AlarmId}
    (h : w.alarms.Kept (slotsOf bubbles highlights) ringing clock table)
    (hb : w.cast.bubble? = bubbles) (hh : w.cast.highlight? = highlights) :
    w.Kept ringing clock table := by
  rw [Kept, slots, hb, hh]
  exact h

theorem kept_initial : initial.Kept [] 0 fun _ => none := by
  have hs : initial.slots = fun _ => none := by
    funext e
    cases e <;> rfl
  rw [Kept, hs]
  exact .initial

theorem Kept.congr (h : w.Kept ringing clock table) (ha : w'.alarms = w.alarms)
    (hb : w'.cast.bubble? = w.cast.bubble?) (hh : w'.cast.highlight? = w.cast.highlight?) :
    w'.Kept ringing clock table :=
  kept_of_slots (ha ▸ h) hb hh

theorem slots_message (hm : w.cast.find? id = some m) :
    w.slots (.message id) = m.figure.bubble.map (·.alarm) := by
  rw [slots, slotsOf, Cast.bubble?, hm]
  rfl

theorem slots_highlight (hm : w.cast.find? id = some m) :
    w.slots (.highlight id) = m.figure.highlight := by
  rw [slots, slotsOf, Cast.highlight?, hm]
  rfl

variable (settings : Settings) (now : Nat)

/-! ## Strikes -/

theorem bubble?_strikeAll (ids : List SpriteId) (w : World) :
    (strikeAll settings now ids w).1.cast.bubble? = w.cast.bubble? :=
  (strikeAll_redraws settings now ids w).bubble?_eq fun _ _ h => h.bubble_eq

/-- Who is struck is lit by a new alarm. -/
theorem slots_strike (hm : w.cast.find? id = some m) :
    (w.strike settings now id).1.slots
      = Function.update w.slots (.highlight id) (some w.alarms.next) := by
  have hb := (strike_redraws settings now w id).bubble?_eq fun _ _ h => h.bubble_eq
  rw [slots, hb, slots, ← slotsOf_update_highlight]
  simp only [strike, hm]
  exact congrArg _ (Cast.highlight?_update hm fun g => rfl)

theorem kept_strike (h : w.Kept ringing clock table) (hm : w.cast.find? id = some m) :
    (w.strike settings now id).1.Kept ringing clock (Function.update table (.highlight id)
      (some (settings.dark now))) := by
  have hk := h.set settings.clockStart now settings.highlightTime (.highlight id)
  rw [slots_highlight hm] at hk
  rw [Kept, slots_strike settings now hm]
  simp only [strike, hm]
  exact hk

/-- The timetable after the registered sprites among `ids` were lit until a deadline. -/
def relit (c : Cast) (deadline : Nat) (ids : List SpriteId) (table : Timetable) : Timetable
  | .message id => table (.message id)
  | .highlight id =>
    if id ∈ ids ∧ (c.find? id).isSome then some deadline else table (.highlight id)

@[simp] theorem relit_nil (c : Cast) (deadline : Nat) (table : Timetable) :
    relit c deadline [] table = table := by
  funext e
  cases e <;> simp [relit]

theorem relit_congr {R : Figure → Figure → Prop} {c c' : Cast} (h : c.Redraws R c')
    (deadline : Nat) (ids : List SpriteId) (table : Timetable) :
    relit c' deadline ids table = relit c deadline ids table := by
  funext e
  cases e with
  | message id => rfl
  | highlight id => simp only [relit, h.isSome_find?_eq]

theorem relit_cons_of_none {c : Cast} (h : c.find? id = none) (deadline : Nat)
    (ids : List SpriteId) (table : Timetable) :
    relit c deadline (id :: ids) table = relit c deadline ids table := by
  funext e
  cases e with
  | message i => rfl
  | highlight i =>
    by_cases hi : i = id
    · subst hi
      simp [relit, h]
    · simp [relit, hi]

theorem relit_cons_of_some {c : Cast} (h : c.find? id = some m) (deadline : Nat)
    (ids : List SpriteId) (table : Timetable) :
    relit c deadline (id :: ids) table
      = relit c deadline ids (Function.update table (.highlight id) (some deadline)) := by
  funext e
  cases e with
  | message i => rfl
  | highlight i =>
    by_cases hi : i = id
    · subst hi
      simp [relit, h]
    · have hne : Expiry.highlight i ≠ .highlight id := fun h => hi (Expiry.highlight.inj h)
      simp [relit, hi, hne]

theorem kept_strikeAll : ∀ (ids : List SpriteId) {w : World} {table : Timetable},
    w.Kept ringing clock table → (strikeAll settings now ids w).1.Kept ringing clock
      (relit w.cast (settings.dark now) ids table)
  | [], w, table, h => by
    rw [relit_nil]
    exact h
  | id :: ids, w, table, h => by
    rcases hm : w.cast.find? id with _ | m
    · have hw : (w.strike settings now id).1 = w := by rw [strike, hm]
      simp only [strikeAll, hw, relit_cons_of_none hm]
      exact kept_strikeAll ids h
    · rw [relit_cons_of_some hm, ← relit_congr (strike_redraws settings now w id)]
      exact kept_strikeAll ids (kept_strike settings now h hm)

/-! ## What shows nothing else -/

theorem Kept.redraws (h : w.Kept ringing clock table) (ha : w'.alarms = w.alarms)
    (hr : w.cast.Redraws Figure.ShowsAs w'.cast) : w'.Kept ringing clock table :=
  h.congr ha (hr.bubble?_eq fun _ _ h => h.1) (hr.highlight?_eq fun _ _ h => h.2)

theorem setLooping_redraws (w : World) (id : SpriteId) (generation : Nat) (looping : Bool) :
    w.cast.Redraws Figure.ShowsAs (w.setLooping id generation looping).cast := by
  simp only [setLooping, Cast.updateCurrent]
  split
  · exact Cast.redraws_update _ Figure.ShowsAs.refl fun g => ⟨rfl, rfl⟩
  · exact .refl Figure.ShowsAs.refl _

theorem kept_setLooping (h : w.Kept ringing clock table) (id : SpriteId) (generation : Nat)
    (looping : Bool) : (w.setLooping id generation looping).Kept ringing clock table :=
  h.redraws rfl (setLooping_redraws w id generation looping)

/-! ## Blocks -/

/-- A command shows what it says in place of any other message. -/
theorem bubble?_apply (hm : w.cast.find? m.id = some m) (c : Command) :
    (w.apply settings now m c).cast.bubble? = match c.speech? settings now with
      | some speech => Function.update w.cast.bubble? m.id (some ⟨speech.1, w.alarms.next⟩)
      | none => w.cast.bubble? := by
  cases c with
  | move steps =>
    have hb : (w.cast.update m.id (·.walk steps)).bubble? = w.cast.bubble? := by
      refine Cast.bubble?_update_of_same fun g => ?_
      unfold Figure.walk
      split <;> rfl
    simp only [apply]
    split <;> exact hb
  | turn degrees => exact Cast.bubble?_update_of_same fun g => rfl
  | goTo x y => exact Cast.bubble?_update_of_same fun g => rfl
  | say text secs => exact Cast.bubble?_update hm fun g => rfl
  | think text secs => exact Cast.bubble?_update hm fun g => rfl
  | loop times => rfl
  | unknown name value => rfl

/-- Who speaks is heard until a new alarm rings. -/
theorem slots_showMessage (hm : w.cast.find? m.id = some m) (text : String) (secs : Float) :
    (w.showMessage settings now m text secs).slots
      = Function.update w.slots (.message m.id) (some w.alarms.next) := by
  have ho : some w.alarms.next = (some (Bubble.mk text w.alarms.next)).map (·.alarm) := rfl
  rw [slots, slots, ho, ← slotsOf_update_bubble]
  exact congrArg₂ slotsOf (Cast.bubble?_update hm fun g => rfl)
    (Cast.highlight?_update_of_same fun g => rfl)

theorem kept_apply (h : w.Kept ringing clock table) (hm : w.cast.find? id = some m) (c : Command) :
    (w.apply settings now m c).Kept ringing clock (c.retime settings now id table) := by
  obtain rfl := Cast.id_of_find? hm
  have hspeak : ∀ (text : String) (secs : Float),
      (w.showMessage settings now m text secs).Kept ringing clock
        (Function.update table (.message m.id)
          (some (Duration.deadline settings.clockStart now (Duration.ofSeconds secs)))) := by
    intro text secs
    have hk := h.set settings.clockStart now (Duration.ofSeconds secs) (.message m.id)
    rw [slots_message hm] at hk
    rw [Kept, slots_showMessage settings now hm]
    exact hk
  cases c with
  | move steps =>
    have hr : w.cast.Redraws Figure.ShowsAs (w.cast.update m.id (·.walk steps)) := by
      refine Cast.redraws_update _ Figure.ShowsAs.refl fun g => ?_
      unfold Figure.walk
      split <;> exact ⟨rfl, rfl⟩
    simp only [apply]
    split <;> exact h.redraws rfl hr
  | turn degrees =>
    exact h.redraws rfl (Cast.redraws_update (·.turn degrees) Figure.ShowsAs.refl
      fun g => ⟨rfl, rfl⟩)
  | goTo x y =>
    exact h.redraws rfl (Cast.redraws_update (·.goTo x y) Figure.ShowsAs.refl fun g => ⟨rfl, rfl⟩)
  | say text secs => exact hspeak text secs
  | think text secs => exact hspeak text secs
  | loop times => exact h
  | unknown name value => exact h

/-! ## Stops, removals and alarms -/

theorem slots_eq_some {e : Expiry} {k : AlarmId} (h : w.slots e = some k) :
    ∃ m, w.cast.find? e.sprite = some m ∧
      match e with
      | .message _ => m.figure.bubble.map (·.alarm) = some k
      | .highlight _ => m.figure.highlight = some k := by
  cases e with
  | message id =>
    rcases hm : w.cast.find? id with _ | m
    · simp [slots, slotsOf, Cast.bubble?, hm] at h
    · exact ⟨m, hm, slots_message hm ▸ h⟩
  | highlight id =>
    rcases hm : w.cast.find? id with _ | m
    · simp [slots, slotsOf, Cast.highlight?, hm] at h
    · exact ⟨m, hm, slots_highlight hm ▸ h⟩

theorem bubble?_hushAll (w : World) (id : SpriteId) : w.hushAll.1.cast.bubble? id = none := by
  show (w.cast.mapFigures (·.figure.hush)).bubble? id = none
  rw [Cast.bubble?, Cast.find?_mapFigures]
  rcases w.cast.find? id with _ | m <;> rfl

theorem bubble?_unregister (w : World) (i : SpriteId) :
    (w.unregister i).1.cast.bubble? id = if id = i then none else w.cast.bubble? id := by
  rw [unregister_cast, Cast.bubble?, Cast.find?_remove]
  split <;> rfl

theorem alarms_hushAll (w : World) :
    w.hushAll.1.alarms = (w.speakers.filterMap fun m =>
      m.figure.bubble.map (·.alarm)).foldl Alarms.cancel w.alarms :=
  Alarms.foldl_cancel? (fun m : Member => m.figure.bubble.map Bubble.alarm) w.speakers w.alarms

theorem slots_hushAll (w : World) :
    w.hushAll.1.slots = fun e => if e.isMessage then none else w.slots e := by
  funext e
  cases e with
  | message id =>
    simp only [slots, slotsOf, bubble?_hushAll]
    rfl
  | highlight id =>
    show (w.cast.mapFigures (·.figure.hush)).highlight? id = w.cast.highlight? id
    rw [Cast.highlight?, Cast.find?_mapFigures]
    rcases hm : w.cast.find? id with _ | m <;> rw [Cast.highlight?, hm] <;> rfl

/-- The alarms of those who speak are those of the messages. -/
theorem mem_speakers_iff (w : World) (k : AlarmId) :
    (k ∈ w.speakers.filterMap fun m => m.figure.bubble.map (·.alarm))
      ↔ ∃ e, e.isMessage ∧ w.slots e = some k := by
  refine ⟨fun hk => ?_, ?_⟩
  · obtain ⟨m, hm, hk⟩ := List.mem_filterMap.1 hk
    have hfind := Cast.find?_of_mem (List.mem_filter.1 hm).1
    exact ⟨.message m.id, rfl, (slots_message hfind).trans hk⟩
  · rintro ⟨e, he, hk⟩
    obtain ⟨m, hm, hk⟩ := slots_eq_some hk
    cases e with
    | message id =>
      refine List.mem_filterMap.2 ⟨m, List.mem_filter.2 ⟨Cast.mem_of_find? hm, ?_⟩, hk⟩
      obtain ⟨b, hb, -⟩ := Option.map_eq_some_iff.1 hk
      rw [hb]
      rfl
    | highlight id => cases he

theorem kept_hushAll (h : w.Kept ringing clock table) :
    w.hushAll.1.Kept ringing clock fun e => if e.isMessage then none else table e := by
  rw [Kept, alarms_hushAll, slots_hushAll]
  exact Alarms.Kept.clear h (fun e => e.isMessage) (mem_speakers_iff w)

/-- Ending every message disarms the alarms of messages, and no other. -/
theorem armed_hushAll (h : w.Kept ringing clock table) {k : AlarmId} {e : Expiry} {deadline : Nat} :
    w.hushAll.1.alarms.Armed k e deadline
      ↔ w.alarms.Armed k e deadline ∧ e.isMessage = false := by
  rw [alarms_hushAll, Alarms.armed_cancelAll, mem_speakers_iff, ← Bool.not_eq_true]
  refine and_congr_right fun ha => not_congr ⟨?_, fun he => ⟨e, he, (h.armed k e deadline ha).1⟩⟩
  rintro ⟨e', he', hk⟩
  exact h.slot_eq ha hk ▸ he'

theorem alarms_unregister (w : World) (id : SpriteId) :
    (w.unregister id).1.alarms
      = (((w.cast.find? id).map (·.figure.alarms)).getD []).foldl Alarms.cancel w.alarms := by
  unfold unregister
  dsimp only
  split <;> rename_i hm <;> rw [hm] <;> rfl

theorem slots_unregister (w : World) (id : SpriteId) :
    (w.unregister id).1.slots = fun e => if e.sprite = id then none else w.slots e := by
  funext e
  cases e with
  | message i =>
    simp only [slots, slotsOf, bubble?_unregister, Expiry.sprite]
    by_cases hi : i = id <;> simp [hi]
  | highlight i =>
    simp only [slots, slotsOf, Cast.highlight?, unregister_cast, Cast.find?_remove, Expiry.sprite]
    by_cases hi : i = id <;> simp [hi]

theorem kept_unregister (h : w.Kept ringing clock table) (id : SpriteId) :
    (w.unregister id).1.Kept ringing clock fun e => if e.sprite = id then none else table e := by
  rw [Kept, alarms_unregister, slots_unregister]
  refine Alarms.Kept.clear h (fun e => e.sprite = id) fun k => ?_
  constructor
  · intro hk
    rcases hm : w.cast.find? id with _ | m
    · rw [hm] at hk
      cases hk
    · rw [hm] at hk
      rcases List.mem_append.1 hk with hk | hk
      · exact ⟨.message id, rfl, (slots_message hm).trans (Option.mem_toList.1 hk)⟩
      · exact ⟨.highlight id, rfl, (slots_highlight hm).trans (Option.mem_toList.1 hk)⟩
  · rintro ⟨e, rfl, hk⟩
    obtain ⟨m, hm, hk⟩ := slots_eq_some hk
    rw [hm]
    cases e with
    | message i => exact List.mem_append_left _ (Option.mem_toList.2 hk)
    | highlight i => exact List.mem_append_right _ (Option.mem_toList.2 hk)

/-- An alarm leaves a message as it is or takes it away. -/
theorem bubble?_ring (w : World) (alarm : AlarmId) (expiry : Expiry) (id : SpriteId) :
    (w.ring alarm expiry).1.cast.bubble? id = w.cast.bubble? id
      ∨ (w.ring alarm expiry).1.cast.bubble? id = none := by
  unfold ring
  split
  · exact .inl rfl
  · rename_i m hm
    cases expiry with
    | message i =>
      dsimp only
      split
      · have hu : (w.cast.update i (·.hush)).bubble? = Function.update w.cast.bubble? i none :=
          Cast.bubble?_update hm fun g => rfl
        by_cases hid : id = i
        · subst hid
          exact .inr ((congrFun hu id).trans (Function.update_self ..))
        · exact .inl ((congrFun hu id).trans (Function.update_of_ne hid ..))
      · exact .inl rfl
    | highlight i =>
      dsimp only
      split
      · have hu : (w.cast.update i (·.dim)).bubble? = w.cast.bubble? :=
          Cast.bubble?_update_of_same fun g => rfl
        exact .inl (congrFun hu id)
      · exact .inl rfl

/-- An alarm that is not in its slot does nothing. -/
theorem ring_stale {alarm : AlarmId} {expiry : Expiry} (h : w.slots expiry ≠ some alarm) :
    w.ring alarm expiry = (w, []) := by
  unfold ring
  split
  · rfl
  · rename_i m hm
    cases expiry with
    | message id => exact if_neg fun hk => h ((slots_message hm).trans hk)
    | highlight id => exact if_neg fun hk => h ((slots_highlight hm).trans hk)

/-- An alarm that is in its slot empties it, and changes no alarm. -/
theorem ring_held {alarm : AlarmId} {expiry : Expiry} (h : w.slots expiry = some alarm) :
    (w.ring alarm expiry).1.alarms = w.alarms
      ∧ (w.ring alarm expiry).1.slots = Function.update w.slots expiry none := by
  obtain ⟨m, hm, hk⟩ := slots_eq_some h
  cases expiry with
  | message id =>
    have hr : (w.ring alarm (.message id)).1 = w.updateFigure id (·.hush) := by
      simp only [ring, hm, hk, if_true]
    rw [hr, slots, slots,
      show (none : Option AlarmId) = (none : Option Bubble).map (·.alarm) from rfl,
      ← slotsOf_update_bubble]
    exact ⟨rfl, congrArg₂ slotsOf (Cast.bubble?_update hm fun g => rfl)
      (Cast.highlight?_update_of_same fun g => rfl)⟩
  | highlight id =>
    have hr : (w.ring alarm (.highlight id)).1 = w.updateFigure id (·.dim) := by
      simp only [ring, hm, hk, if_true]
    rw [hr, slots, slots, ← slotsOf_update_highlight]
    exact ⟨rfl, congrArg₂ slotsOf (Cast.bubble?_update_of_same fun g => rfl)
      (Cast.highlight?_update hm fun g => rfl)⟩

theorem kept_ring {alarm : AlarmId} {expiry : Expiry}
    (h : w.Kept ((alarm, expiry) :: ringing) clock table) :
    (w.ring alarm expiry).1.Kept ringing clock table := by
  by_cases hk : w.slots expiry = some alarm
  · obtain ⟨ha, hs⟩ := ring_held hk
    rw [Kept, ha, hs]
    exact Alarms.Kept.ring_held h hk
  · rw [ring_stale hk]
    exact Alarms.Kept.ring_stale h hk

end World

end SpriteCanvas
