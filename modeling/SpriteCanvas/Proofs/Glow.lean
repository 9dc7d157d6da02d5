import SpriteCanvas.Proofs.Dimming
import SpriteCanvas.Proofs.Endings

/-!
# How long sprites stay highlighted

When a sprite was struck last can be read off a chronicle, and when the host was told since that it
is no longer highlighted (`Moment.glow`).  The last strike alone says whether the sprite is
highlighted, and that it is over is told once, at the very time at which it is
(`Course.highlights_follow_strikes`).
-/

namespace SpriteCanvas

/-- What there is to say of the highlight of a sprite since it was registered. -/
structure Glow where
  /-- When the sprite was struck last. -/
  struckAt : Option Nat
  /-- When the host was told since then that the sprite is no longer highlighted. -/
  offs : List Nat

/-- The sprite was not struck. -/
def Glow.unstruck : Glow := ⟨none, []⟩

variable {settings : Settings} {id : SpriteId}

/-- What there is to say after an entry: the removal of the sprite ends it, and a strike begins
anew. -/
def World.glowAfter (settings : Settings) (id : SpriteId) (w : World) (g : Glow) (e : Entry) :
    Glow :=
  match e.deed with
  | .answer (.unregister i) => if i = id then .unstruck else g
  | .tell n => if n.dims id then { g with offs := g.offs ++ [e.time] } else g
  | d => if id ∈ w.struck settings e.time d then ⟨some e.time, []⟩ else g

theorem Settings.le_dark (settings : Settings) (t : Nat) : t ≤ settings.dark t :=
  Nat.le_add_right _ _

namespace World

variable {w : World} {g : Glow} {e : Entry}

theorem glowAfter_unregister (h : e.deed = .answer (.unregister id)) :
    w.glowAfter settings id g e = .unstruck := by
  rw [glowAfter, h]
  exact if_pos rfl

theorem glowAfter_tell {n : Notice} (h : e.deed = .tell n) :
    w.glowAfter settings id g e
      = if n.dims id then { g with offs := g.offs ++ [e.time] } else g := by
  rw [glowAfter, h]

theorem glowAfter_struck (h : id ∈ w.struck settings e.time e.deed) :
    w.glowAfter settings id g e = ⟨some e.time, []⟩ := by
  obtain ⟨t, d⟩ := e
  cases d with
  | answer c =>
    cases c with
    | checkAll | drainChecks => exact if_pos h
    | _ => cases h
  | tell n => cases h
  | _ => exact if_pos h

theorem glowAfter_spared (hu : e.deed ≠ .answer (.unregister id)) (hn : e.notice? = none)
    (hs : id ∉ w.struck settings e.time e.deed) : w.glowAfter settings id g e = g := by
  obtain ⟨t, d⟩ := e
  cases d with
  | answer c =>
    cases c with
    | unregister i =>
      refine if_neg fun hi => hu ?_
      rw [hi]
    | _ => exact if_neg (t := (⟨some t, []⟩ : Glow)) hs
  | tell n => cases hn
  | _ => exact if_neg (t := (⟨some t, []⟩ : Glow)) hs

/-- A strike puts its time into the timetable, and a removal takes it out. -/
theorem retimed_highlight {table : Timetable}
    (h : table (.highlight id) = g.struckAt.map settings.dark) :
    w.retimed settings e.time e.deed table (.highlight id)
      = (w.glowAfter settings id g e).struckAt.map settings.dark := by
  have hrelit : w.retimed settings e.time e.deed table (.highlight id)
      = if id ∈ w.struck settings e.time e.deed then some (settings.dark e.time)
        else e.deed.retime settings e.time table (.highlight id) := by
    rw [retimed, relit]
    refine if_congr (and_iff_left_of_imp fun hid => ?_) rfl rfl
    obtain ⟨m, hm, hid⟩ := List.mem_map.1 (mem_ids_of_mem_struck hid)
    exact hid ▸ Cast.find?_of_mem hm ▸ rfl
  rw [hrelit]
  by_cases hs : id ∈ w.struck settings e.time e.deed
  · rw [if_pos hs, glowAfter_struck hs]
    rfl
  rw [if_neg hs]
  by_cases hu : e.deed = .answer (.unregister id)
  · rw [glowAfter_unregister hu, hu]
    exact if_pos rfl
  have hkeep : e.deed.retime settings e.time table (.highlight id) = table (.highlight id) := by
    obtain ⟨t, d⟩ := e
    cases d with
    | execute r b =>
      have hne : Expiry.highlight id ≠ .message r.id := by
        rintro ⟨⟩
      simp only [Deed.retime, Command.retime]
      rcases b.command.speech? settings t with _ | speech
      · rfl
      · exact Function.update_of_ne hne ..
    | answer c =>
      cases c with
      | unregister i => exact if_neg fun hi => hu (by rw [← show id = i from hi])
      | _ => rfl
    | _ => rfl
  rw [hkeep, h]
  rcases hn : e.notice? with _ | n
  · rw [glowAfter_spared hu hn hs]
  · rw [glowAfter_tell (Moment.deed_of_notice? hn)]
    split <;> rfl

end World

namespace Moment

/-- What there is to say of the highlight of a sprite after a stretch of a chronicle. -/
def glow (settings : Settings) (id : SpriteId) : Moment → Glow → List Entry → Glow
  | _, g, [] => g
  | n, g, e :: log =>
    glow settings id (n.perform settings e) (n.world.glowAfter settings id g e) log

/-- Nothing happens while a sprite is highlighted after the time at which that is over. -/
def OnTime (settings : Settings) (id : SpriteId) : Moment → Glow → List Entry → Prop
  | _, _, [] => True
  | n, g, e :: log =>
    (n.world.isLit id = true → ∀ t, g.struckAt = some t → e.time ≤ settings.dark t)
      ∧ OnTime settings id (n.perform settings e) (n.world.glowAfter settings id g e) log

variable {now : Nat} {n : Moment} {g : Glow} {ns : List Notice} {e : Entry}
  {log log' rest : List Entry}

theorem glow_append (n : Moment) (g : Glow) (log log' : List Entry) :
    n.glow settings id g (log ++ log')
      = (n.after settings log).glow settings id (n.glow settings id g log) log' := by
  induction log generalizing n g with
  | nil => rfl
  | cons e log ih => exact ih _ _

theorem OnTime.append (h : n.OnTime settings id g log)
    (h' : (n.after settings log).OnTime settings id (n.glow settings id g log) log') :
    n.OnTime settings id g (log ++ log') := by
  induction log generalizing n g with
  | nil => exact h'
  | cons e log ih => exact ⟨h.1, ih h.2 h'⟩

/-- One entry: whoever is lit after it is struck by it or was lit and not struck. -/
theorem lit_perform (h : (n.perform settings e).world.isLit id = true) :
    id ∈ n.world.struck settings e.time e.deed
      ∨ n.world.isLit id = true
        ∧ (n.world.glowAfter settings id g e).struckAt = g.struckAt := by
  have hu : e.deed ≠ .answer (.unregister id) := fun hu => by
    rw [Moment.perform, hu, World.isLit_unregister] at h
    cases h
  have hd : ¬ n.world.Dims id e.deed := fun hd => by
    rw [Moment.perform, hd.isLit_perform] at h
    cases h
  by_cases hs : id ∈ n.world.struck settings e.time e.deed
  · exact .inl hs
  refine .inr ⟨((World.isLit_perform settings e.time e.deed hu hd).1 h).resolve_left hs, ?_⟩
  rcases hn : e.notice? with _ | notice
  · rw [World.glowAfter_spared hu hn hs]
  · rw [World.glowAfter_tell (deed_of_notice? hn)]
    split <;> rfl

/-- While the clock stands nobody gets late. -/
theorem onTime_of_times (hlog : ∀ e ∈ log, e.time = now)
    (h : n.world.isLit id = true → ∀ t, g.struckAt = some t → now ≤ settings.dark t) :
    n.OnTime settings id g log
      ∧ ((n.after settings log).world.isLit id = true →
        ∀ t, (n.glow settings id g log).struckAt = some t → now ≤ settings.dark t) := by
  induction log generalizing n g with
  | nil => exact ⟨trivial, h⟩
  | cons e log ih =>
    have he := hlog e List.mem_cons_self
    have hrest := ih (n := n.perform settings e) (g := n.world.glowAfter settings id g e)
      (fun e' he' => hlog e' (List.mem_cons_of_mem e he')) fun hl t ht => by
        rcases lit_perform (g := g) hl with hs | ⟨hl, hsame⟩
        · rw [World.glowAfter_struck hs] at ht
          cases ht
          exact he ▸ settings.le_dark e.time
        · exact h hl t (hsame ▸ ht)
    exact ⟨⟨he ▸ h, hrest.1⟩, hrest.2⟩

/-- What a chronicle has come to for the highlight of a sprite: a timetable is kept with its end;
and either the host has been told all there is to tell, or the alarm has rung and telling it is the
next thing. -/
structure Glowing (settings : Settings) (id : SpriteId) (n : Moment) (g : Glow) (ns : List Notice)
    (rest : List Entry) : Prop where
  kept : ∃ table, n.world.Kept n.ringing n.clock table
    ∧ table (.highlight id) = g.struckAt.map settings.dark
  told : ((∀ notice ∈ ns, notice.dims id = false)
      ∧ g.offs = if n.world.isLit id then [] else (g.struckAt.map settings.dark).toList)
    ∨ ∃ t notice ns' rest', g = ⟨some t, []⟩ ∧ n.world.isLit id = false
      ∧ ns = notice :: ns' ∧ notice.dims id = true ∧ (∀ notice ∈ ns', notice.dims id = false)
      ∧ rest = ⟨settings.dark t, .tell notice⟩ :: rest'

theorem glowing_start (rest : List Entry) : start.Glowing settings id .unstruck [] rest :=
  ⟨⟨_, World.kept_initial, rfl⟩, .inl ⟨nofun, rfl⟩⟩

/-- When the alarm of a highlight rings in time, it is over just then. -/
theorem Glowing.struckAt_of_dims (h : n.Glowing settings id g ns (e :: rest))
    (ht : n.clock ≤ e.time) (ha : n.Allows e.deed) (hd : n.world.Dims id e.deed)
    (hon : ∀ t, g.struckAt = some t → e.time ≤ settings.dark t) :
    ∃ t, g.struckAt = some t ∧ e.time = settings.dark t := by
  obtain ⟨table, hk, htable⟩ := h.kept
  obtain ⟨k, hdeed, hslot⟩ := hd
  rw [hdeed] at ha
  obtain ⟨ringing, hring⟩ := ha
  obtain ⟨deadline, hdl, hheld⟩ := hk.held k _ hslot
  obtain ⟨t, hstruck, rfl⟩ := Option.map_eq_some_iff.1 (htable.symm.trans hdl)
  have hrung := (hk.rung k (.highlight id) (hring ▸ List.mem_cons_self)).1
  have hdue : settings.dark t ≤ n.clock := by
    rcases hheld with harmed | ⟨-, hdue⟩
    · cases hrung.symm.trans harmed.1
    · exact hdue
  exact ⟨t, hstruck, Nat.le_antisymm (hon t hstruck) (Nat.le_trans hdue ht)⟩

theorem Glowing.perform (h : n.Glowing settings id g ns (e :: rest)) (ht : n.clock ≤ e.time)
    (ha : n.Allows e.deed) (hhead : ∀ notice, e.notice? = some notice → ns.head? = some notice)
    (hprompt : ∀ notice notices, (n.world.perform settings e.time e.deed).2 = notice :: notices →
      ∃ rest', rest = ⟨e.time, .tell notice⟩ :: rest')
    (hon : n.world.isLit id = true → ∀ t, g.struckAt = some t → e.time ≤ settings.dark t) :
    (n.perform settings e).Glowing settings id (n.world.glowAfter settings id g e)
      (n.waitingAfter settings ns e) rest := by
  obtain ⟨table, hk, htable⟩ := h.kept
  refine ⟨⟨_, kept_perform hk ht ha, World.retimed_highlight htable⟩, ?_⟩
  rcases h.told with ⟨hcalm, hoffs⟩ | ⟨t, notice, ns', rest', rfl, hdark, rfl, hdims, hcalm, hrest⟩
  · rcases hn : e.notice? with _ | notice
    · rw [waitingAfter_of_none hn]
      by_cases hd : n.world.Dims id e.deed
      · -- The alarm rings: nothing was told since the strike, and now it will be.
        obtain ⟨t, hstruck, htime⟩ := h.struckAt_of_dims ht ha hd (hon hd.isLit)
        obtain ⟨notice, hnotices, hdims⟩ := hd.notices settings e.time
        obtain ⟨rest', hrest⟩ := hprompt notice [] hnotices
        have hu : e.deed ≠ .answer (.unregister id) := by
          obtain ⟨k, hk, -⟩ := hd
          rw [hk]
          exact nofun
        have hs : id ∉ n.world.struck settings e.time e.deed := by
          obtain ⟨k, hk, -⟩ := hd
          rw [hk]
          exact List.not_mem_nil
        rw [if_pos hd.isLit] at hoffs
        refine .inr ⟨t, notice, ns, rest', ?_, hd.isLit_perform, by rw [hnotices]; rfl, hdims,
          hcalm, htime ▸ hrest⟩
        rw [World.glowAfter_spared hu hn hs, ← hstruck, ← hoffs]
      · refine .inl ⟨fun notice hmem => ?_, ?_⟩
        · rcases List.mem_append.1 hmem with hmem | hmem
          · exact World.not_dims_of_mem_perform hd hmem
          · exact hcalm notice hmem
        by_cases hu : e.deed = .answer (.unregister id)
        · rw [World.glowAfter_unregister hu]
          exact (ite_self _).symm
        have hlit := World.isLit_perform settings e.time e.deed hu hd
        by_cases hs : id ∈ n.world.struck settings e.time e.deed
        · rw [World.glowAfter_struck hs]
          exact (if_pos (hlit.2 (.inl hs))).symm
        · have hsame : (n.perform settings e).world.isLit id = n.world.isLit id :=
            Bool.eq_iff_iff.2 (hlit.trans (or_iff_right hs))
          rw [World.glowAfter_spared hu hn hs, hsame]
          exact hoffs
    · have hdeed := deed_of_notice? hn
      obtain ⟨tl, rfl⟩ := List.head?_eq_some_iff.1 (hhead notice hn)
      have hworld : (n.perform settings e).world = n.world := by
        rw [Moment.perform, hdeed]
        rfl
      rw [waitingAfter_of_some hn, World.glowAfter_tell hdeed, hcalm notice List.mem_cons_self,
        hworld]
      exact .inl ⟨fun notice hmem => hcalm notice (List.mem_cons_of_mem _ hmem), hoffs⟩
  · cases hrest
    have hnotice : (⟨settings.dark t, .tell notice⟩ : Entry).notice? = some notice := rfl
    rw [waitingAfter_of_some hnotice, World.glowAfter_tell (n := notice) rfl, hdims]
    refine .inl ⟨hcalm, ?_⟩
    have hworld : (n.perform settings ⟨settings.dark t, .tell notice⟩).world = n.world := rfl
    rw [hworld, hdark]
    rfl

/-- A chronicle in which all is told at once and nothing is late. -/
theorem Glowing.after (h : n.Glowing settings id g ns (log ++ rest))
    (hlaw : n.Lawful settings (log ++ rest)) (horder : n.Orderly settings ns (log ++ rest))
    (hprompt : n.Prompt settings (log ++ rest)) (hon : n.OnTime settings id g (log ++ rest)) :
    (n.after settings log).Glowing settings id (n.glow settings id g log)
        (n.waiting settings ns log) rest
      ∧ (n.after settings log).OnTime settings id (n.glow settings id g log) rest := by
  induction log generalizing n g ns with
  | nil => exact ⟨h, hon⟩
  | cons e log ih =>
    exact ih (h.perform hlaw.1 hlaw.2.1 horder.1.1 hprompt.1 hon.1) hlaw.2.2 horder.2 hprompt.2
      hon.2

end Moment

namespace Course

variable {x : Course}

/-- The highlight of a sprite at any time of a chronicle. -/
abbrev glow (settings : Settings) (id : SpriteId) (log : List Entry) : Glow :=
  Moment.start.glow settings id .unstruck log

/-- The world keeps a timetable with the end of each highlight. -/
theorem exists_kept_glow (h : Show.Follows settings x.clock .start x.chronicle x.engine)
    (id : SpriteId) : ∃ table, x.engine.world.Kept [] x.clock table
      ∧ table (.highlight id) = (glow settings id x.chronicle).struckAt.map settings.dark := by
  obtain ⟨hlaw, hagree⟩ := h
  obtain ⟨table, hk, htable⟩ := hlaw.induction (P := fun log n => ∃ table : Timetable,
    n.world.Kept n.ringing n.clock table
      ∧ table (.highlight id) = (glow settings id log).struckAt.map settings.dark
      ∧ n = Moment.start.after settings log)
    ⟨_, World.kept_initial, rfl, rfl⟩ fun e _ log n hn ht ha => by
      obtain ⟨table, hk, htable, rfl⟩ := hn
      refine ⟨_, Moment.kept_perform hk ht ha, ?_, by rw [Moment.after_append]; rfl⟩
      rw [glow, Moment.glow_append]
      exact World.retimed_highlight htable
  rw [hagree.world, hagree.ringing] at hk
  exact ⟨table, Alarms.Kept.mono hk hagree.clock, htable.1⟩

/-- In a settled engine no highlight ends before time may pass to. -/
theorem le_dark_of_pass {table : Timetable} {t duration : Nat}
    (hk : x.engine.world.Kept [] x.clock table)
    (htable : table (.highlight id) = some (settings.dark t))
    (hlit : x.engine.world.isLit id = true)
    (hdue : ∀ t, x.engine.nextWake? = some t → x.clock + duration ≤ t) :
    x.clock + duration ≤ settings.dark t := by
  obtain ⟨k, hk'⟩ := Option.isSome_iff_exists.1 hlit
  obtain ⟨deadline, hdl, harmed | ⟨hring, -⟩⟩ := hk.held k _ hk'
  · obtain rfl := Option.some.inj (htable.symm.trans hdl)
    obtain ⟨t', hle, hnext⟩ := hk.sound.schedule.nextDeadline_le harmed
    obtain ⟨t'', hle', hwake⟩ := Show.foldl_earlier?_le x.engine.performers (.inl hnext)
    exact Nat.le_trans (hdue t'' hwake) (Nat.le_trans hle' hle)
  · cases hring

/-- One timely move: if nothing was late and nobody is late, so it is after the move. -/
theorem onTime_move {y : Course} {m : Move} (hm : y.Timely settings m)
    (hkept : ∃ table, y.engine.world.Kept [] y.clock table
      ∧ table (.highlight id) = (glow settings id y.chronicle).struckAt.map settings.dark)
    (hworld : (Moment.start.after settings y.chronicle).world = y.engine.world)
    (hon : Moment.start.OnTime settings id .unstruck y.chronicle)
    (hlit : y.engine.world.isLit id = true → ∀ t, (glow settings id y.chronicle).struckAt = some t →
      y.clock ≤ settings.dark t)
    (hnext : (Moment.start.after settings (y.move settings m).chronicle).world
      = (y.move settings m).engine.world) :
    Moment.start.OnTime settings id .unstruck (y.move settings m).chronicle
      ∧ ((y.move settings m).engine.world.isLit id = true →
        ∀ t, (glow settings id (y.move settings m).chronicle).struckAt = some t →
          (y.move settings m).clock ≤ settings.dark t) := by
  have htimes : ∀ e ∈ y.engine.scene.log settings y.clock (y.deeds settings m),
      e.time = y.clock := fun e he => (Scene.of_mem_log settings y.clock he).1
  rw [← hworld] at hlit
  have hlog := Moment.onTime_of_times htimes hlit
  have hchronicle : (y.move settings m).chronicle
      = y.chronicle ++ y.engine.scene.log settings y.clock (y.deeds settings m) := rfl
  rw [hchronicle, Moment.after_append] at hnext
  refine ⟨hon.append hlog.1, fun hl t ht => ?_⟩
  have hstruck := ht
  rw [hchronicle, glow, Moment.glow_append] at hstruck
  have hle : y.clock ≤ settings.dark t := hlog.2 (hnext ▸ hl) t hstruck
  cases m with
  | pass duration =>
    obtain ⟨table, hk, htable⟩ := hkept
    have hsame : (glow settings id y.chronicle).struckAt = some t := hstruck
    rw [hsame] at htable
    exact le_dark_of_pass hk htable hl hm.2
  | _ => exact hle

/-- In timely moves nothing is late. -/
theorem onTime_run {listening : Listening} {reactions : List Reaction} {ms : List Move}
    (hms : (start listening reactions).Throughout settings (Timely settings) ms)
    (id : SpriteId) : Moment.start.OnTime settings id .unstruck
      ((start listening reactions).run settings ms).chronicle := by
  refine (hms.induction settings (P := fun y =>
    Show.Follows settings y.clock .start y.chronicle y.engine
      ∧ Moment.start.OnTime settings id .unstruck y.chronicle
      ∧ (y.engine.world.isLit id = true → ∀ t, (glow settings id y.chronicle).struckAt = some t →
        y.clock ≤ settings.dark t)) ?_ fun y m hm h => ?_).2.1
  · exact ⟨⟨trivial, agrees_start listening reactions⟩, trivial, nofun⟩
  · have hnext := follows_next h.1 m
    exact ⟨hnext, onTime_move hm (exists_kept_glow h.1 id) h.1.2.world h.2.1 h.2.2
      hnext.2.world⟩

/-- The highlights of a sprite in a settled course. -/
structure HighlightLaw (settings : Settings) (x : Course) (id : SpriteId) : Prop where
  /-- The sprite is highlighted if it was struck since it was registered and the highlight time is
  not over since the last time. -/
  shown : ∀ m, x.engine.world.cast.find? id = some m →
    (m.figure.snapshot.highlighted = true
      ↔ ∃ t, (glow settings id x.chronicle).struckAt = some t ∧ x.clock < settings.dark t)
  /-- The host was told since then that the highlight is over, once and just when it was, or that
  time is still to come. -/
  told : (glow settings id x.chronicle).offs
    = match (glow settings id x.chronicle).struckAt with
      | some t => if x.clock < settings.dark t then [] else [settings.dark t]
      | none => []
  /-- So it was at every time before, until the sprite was struck again or taken out. -/
  toldBefore : ∀ log rest, x.chronicle = log ++ rest →
    (glow settings id log).offs = []
        ∧ (∀ t, (glow settings id log).struckAt = some t →
          ∀ e ∈ rest.head?, e.time ≤ settings.dark t)
      ∨ ∃ t, (glow settings id log).struckAt = some t
        ∧ (glow settings id log).offs = [settings.dark t]
  /-- A highlight that does not run past the end of the clock lasts for the highlight time. -/
  lasts : ∀ t, settings.clockStart + t + settings.highlightTime < Duration.clockRange →
    settings.dark t = t + settings.highlightTime

theorem highlightLaw_run {listening : Listening} {reactions : List Reaction} {ms : List Move}
    (hms : (start listening reactions).Throughout settings (Timely settings) ms)
    (hs : ((start listening reactions).run settings ms).engine.turn? settings
      ((start listening reactions).run settings ms).clock = none) (id : SpriteId) :
    ((start listening reactions).run settings ms).HighlightLaw settings id := by
  have hfollows := follows_run settings listening reactions ms
  have hdelivers := delivers_run settings listening reactions ms
  have hprompt := prompt_run settings listening reactions ms
  have hon := onTime_run hms id
  generalize (start listening reactions).run settings ms = x at *
  have hlit : x.engine.world.isLit id = true
      ↔ ∃ t, (glow settings id x.chronicle).struckAt = some t ∧ x.clock < settings.dark t := by
    obtain ⟨table, hk, htable⟩ := exists_kept_glow hfollows id
    refine (hk.isSome_iff (Show.alarmIsDue_of_turn? hs)).trans ?_
    rw [htable]
    simp
  have hglowing : ∀ log rest, x.chronicle = log ++ rest →
      (Moment.start.after settings log).Glowing settings id (glow settings id log)
          (Moment.start.waiting settings [] log) rest
        ∧ (Moment.start.after settings log).OnTime settings id (glow settings id log) rest := by
    intro log rest hlog
    rw [hlog] at hfollows hdelivers hprompt hon
    exact (Moment.glowing_start (log ++ rest)).after hfollows.1 hdelivers.orderly hprompt hon
  refine ⟨fun m hm => ?_, ?_, fun log rest hlog => ?_, fun t ht => ?_⟩
  · rw [← hlit, World.isLit, World.slots_highlight hm]
    exact .rfl
  · obtain ⟨hglow, -⟩ := hglowing x.chronicle [] (List.append_nil _).symm
    obtain ⟨-, hoffs⟩ := hglow.told.resolve_right (by simp)
    rw [hoffs, hfollows.2.world]
    rcases hstruck : (glow settings id x.chronicle).struckAt with _ | t
    · exact ite_self _
    · rw [hstruck] at hlit
      by_cases hlt : x.clock < settings.dark t
      · rw [if_pos (hlit.2 ⟨t, rfl, hlt⟩)]
        exact (if_pos hlt).symm
      · rw [if_neg fun hl => ?_]
        · exact (if_neg hlt).symm
        · obtain ⟨t', ht', hlt'⟩ := hlit.1 hl
          cases ht'
          exact hlt hlt'
  · obtain ⟨hglow, hontime⟩ := hglowing log rest hlog
    rcases hglow.told with ⟨-, hoffs⟩ | ⟨t, notice, ns, rest', hg, -, -, -, -, rfl⟩
    · split at hoffs
      · rename_i hl
        refine .inl ⟨hoffs, fun t ht e he => ?_⟩
        cases rest with
        | nil => cases he
        | cons f rest =>
          cases he
          exact hontime.1 hl t ht
      · rcases hstruck : (glow settings id log).struckAt with _ | t
        · rw [hstruck] at hoffs
          exact .inl ⟨hoffs, fun _ ht => by cases ht⟩
        · rw [hstruck] at hoffs
          exact .inr ⟨t, rfl, hoffs⟩
    · rw [hg]
      refine .inl ⟨rfl, fun t' ht' e he => ?_⟩
      cases ht'
      cases he
      exact Nat.le_refl _
  · rw [Settings.dark, Duration.deadline, if_pos ht]

/-- When time waits for whoever can take a turn and stops where something is due, and whatever
happens in between, the highlights of a settled engine follow the strikes.  So they do after every
step of every session. -/
theorem highlights_follow_strikes (settings : Settings) (listening : Listening)
    (reactions : List Reaction) :
    (∀ ms id, (start listening reactions).Throughout settings (Timely settings) ms →
      ((start listening reactions).run settings ms).engine.turn? settings
        ((start listening reactions).run settings ms).clock = none →
      ((start listening reactions).run settings ms).HighlightLaw settings id)
    ∧ ∀ steps, ∃ ms, (start listening reactions).Throughout settings (Orderly settings) ms
      ∧ ((start listening reactions).run settings ms).clock
        = ((Session.new settings listening reactions).stepAll steps).clock
      ∧ ((start listening reactions).run settings ms).engine
        = ((Session.new settings listening reactions).stepAll steps).engine
      ∧ ∀ id, ((start listening reactions).run settings ms).HighlightLaw settings id := by
  refine ⟨fun ms id hms hs => highlightLaw_run hms hs id, fun steps => ?_⟩
  obtain ⟨ms, hms, hclock, hengine, hs⟩ :=
    Session.exists_settled_moves settings listening reactions steps
  exact ⟨ms, hms, hclock, hengine, highlightLaw_run (hms.mono fun _ _ h => h.1) hs⟩

end Course

end SpriteCanvas
