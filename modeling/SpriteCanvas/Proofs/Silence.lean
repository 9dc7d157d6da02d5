import SpriteCanvas.Proofs.Endings
import SpriteCanvas.Proofs.Speech

/-!
# After a stop

A stop ends the life of the run, the messages and their alarms, and nothing else
(`World.stops_stop`).  While no run is live nobody says anything, and on its own the engine changes
no sprite, except that highlights go out and that sprites are marked as outside a loop
(`Moment.Hushed.fades`).  A performer that had not entered its loop when its run was stopped still
marks its sprite as inside, and as outside again before anything else happens (`Moment.Brief`).
-/

namespace SpriteCanvas

theorem Cast.updateCurrent_updateCurrent (c : Cast) (id : SpriteId) (generation : Nat)
    (f g : Figure → Figure) :
    (c.updateCurrent id generation f).updateCurrent id generation g
      = c.updateCurrent id generation fun x => g (f x) := by
  unfold updateCurrent
  by_cases hc : c.isCurrent id generation
  · have hc' : (c.update id f).isCurrent id generation := by
      rwa [isCurrent_eq, (redrawn_update id f).part?_eq id, ← isCurrent_eq]
    rw [if_pos hc, if_pos hc', if_pos hc, update, update, mapFigures_mapFigures, update]
    congr 1
    funext m
    split <;> simp
  · rw [if_neg hc, if_neg hc, if_neg hc]

namespace World

/-- What a stop does: it ends the life of the live run, every message and every alarm of a
message. -/
structure Stops (w w' : World) : Prop where
  runs : w'.runs = w.runs.stop
  cast : w'.cast = w.cast.mapFigures (·.figure.hush)
  checks : w'.checks = w.checks
  next : w'.alarms.next = w.alarms.next
  armed : ∀ k e deadline, w'.alarms.Armed k e deadline
    ↔ w.alarms.Armed k e deadline ∧ e.isMessage = false

/-- No sprite shows a message, and no alarm of a message is set. -/
structure Silent (w : World) : Prop where
  bubble : ∀ id, w.cast.bubble? id = none
  armed : ∀ k id deadline, ¬ w.alarms.Armed k (.message id) deadline

/-- A deed changes no sprite and no waiting check, or it ends a highlight whose alarm rings, or it
marks a sprite as outside a loop. -/
inductive Fades (w : World) : Deed → World → Prop
  | idle {d : Deed} {w' : World} (hc : w'.cast = w.cast) (hq : w'.checks = w.checks) : Fades w d w'
  | dim {alarm : AlarmId} {id : SpriteId} (hk : w.cast.highlight? id = some alarm) :
    Fades w (.ring alarm (.highlight id)) (w.updateFigure id (·.dim))
  | unmark (r : Role) : Fades w (.mark r false) (w.setLooping r.id r.generation false)

variable {w w' : World} {ringing : List (AlarmId × Expiry)} {clock : Nat} {table : Timetable}

theorem stops_stop (h : w.Kept ringing clock table) : w.Stops w.stop.1 where
  runs := rfl
  cast := rfl
  checks := rfl
  next := by
    have ha : w.stop.1.alarms = w.hushAll.1.alarms := rfl
    rw [ha, alarms_hushAll, Alarms.next_cancelAll]
  armed _ _ _ := armed_hushAll h

theorem silent_of_kept (h : w.Kept ringing clock table) (hb : ∀ id, w.cast.bubble? id = none) :
    w.Silent where
  bubble := hb
  armed k id deadline ha := by
    have hs := (h.armed k (.message id) deadline ha).1
    rw [slots, slotsOf, hb id] at hs
    cases hs

theorem setLooping_setLooping (w : World) (id : SpriteId) (generation : Nat) (a b : Bool) :
    (w.setLooping id generation a).setLooping id generation b = w.setLooping id generation b := by
  simp only [setLooping, Cast.updateCurrent_updateCurrent]

/-- Where nobody says anything, an alarm can only end a highlight. -/
theorem fades_ring (hb : ∀ id, w.cast.bubble? id = none) (alarm : AlarmId) (expiry : Expiry) :
    w.Fades (.ring alarm expiry) (w.ring alarm expiry).1 := by
  by_cases hs : w.slots expiry = some alarm
  · obtain ⟨m, hm, hk⟩ := slots_eq_some hs
    cases expiry with
    | message id =>
      rw [slots, slotsOf, hb id] at hs
      cases hs
    | highlight id =>
      have hr : (w.ring alarm (.highlight id)).1 = w.updateFigure id (·.dim) := by
        simp only [ring, hm, hk, if_true]
      rw [hr]
      exact .dim hs
  · rw [ring_stale hs]
    exact .idle rfl rfl

end World

/-! ## While no run is live -/

namespace Moment

variable {settings : Settings} {n : Moment} {e : Entry} {log : List Entry}

/-- No run is live, and nobody says anything. -/
structure Hushed (n : Moment) : Prop where
  live : n.world.runs.live = none
  bubble : ∀ id, n.world.cast.bubble? id = none

theorem hushed_stop (n : Moment) (settings : Settings) (t : Nat) :
    (n.perform settings ⟨t, .answer .stop⟩).Hushed where
  live := by
    rw [runs_perform]
    exact RunBook.live_stop _
  bubble := World.bubble?_hushAll _

theorem Hushed.perform (h : n.Hushed) (ha : n.Allows e.deed) (hb : ∀ run, e.deed ≠ .begin run) :
    (n.perform settings e).Hushed where
  live := by
    rw [runs_perform]
    rcases hl : (n.world.runs.perform e.deed).live with _ | run
    · rfl
    · rcases RunBook.live_of_perform hl with hl | ⟨⟨r, hd⟩, -⟩
      · cases h.live.symm.trans hl
      · exact absurd hd (hb r)
  bubble id := by
    have hs : (n.perform settings e).world.Says id (e.deed.said settings e.time id none) :=
      World.says_perform (World.says_of_none (h.bubble id)) e.deed
    have hsaid : e.deed.said settings e.time id none = none := by
      cases hd : e.deed with
      | execute r b =>
        rw [hd] at ha
        cases h.live.symm.trans ha.1
      | answer c =>
        cases c with
        | unregister i => exact ite_self none
        | _ => rfl
      | _ => rfl
    rw [hsaid] at hs
    rcases hbubble : (n.perform settings e).world.cast.bubble? id with _ | b
    · rfl
    · cases hs b hbubble

theorem Hushed.after (h : n.Hushed) (hl : n.Lawful settings log)
    (hb : ∀ e ∈ log, ∀ run, e.deed ≠ .begin run) : (n.after settings log).Hushed :=
  hl.induction (P := fun _ n => n.Hushed) h fun e he _ _ hn _ ha => hn.perform ha (hb e he)

/-- Until a run begins, the engine on its own only lets highlights go out and marks sprites as
outside a loop, but for marks inside one. -/
theorem Hushed.fades (h : n.Hushed) (ha : n.Allows e.deed) (hcall : ∀ c, e.deed ≠ .answer c)
    (hbegin : ∀ run, e.deed ≠ .begin run) (hmark : ∀ r, e.deed ≠ .mark r true) :
    n.world.Fades e.deed (n.perform settings e).world := by
  obtain ⟨t, d⟩ := e
  cases d with
  | answer c => exact absurd rfl (hcall c)
  | begin run => exact absurd rfl (hbegin run)
  | execute r b => cases h.live.symm.trans ha.1
  | drain r => cases h.live.symm.trans ha.1
  | mark r looping =>
    cases looping with
    | false => exact .unmark r
    | true => exact absurd rfl (hmark r)
  | ring alarm expiry => exact World.fades_ring h.bubble alarm expiry
  | _ => exact .idle rfl rfl

/-! ## Marks of stopped runs -/

/-- Who is marked as inside a loop while no run is live is marked as outside right after that. -/
def Brief (settings : Settings) : Moment → List Entry → Prop
  | _, [] => True
  | n, e :: log =>
    (∀ r, e.deed = .mark r true → n.world.runs.live = none →
      ∃ rest, log = ⟨e.time, .mark r false⟩ :: rest) ∧ Brief settings (n.perform settings e) log

/-- What happens next, if it is not a call and not the beginning of a run, is that a highlight goes
out or a sprite leaves a loop, as far as anybody sees: a sprite that is marked as inside a loop is
marked as outside before anything else happens. -/
def Fading (settings : Settings) (n : Moment) (log : List Entry) : Prop :=
  ∀ e rest, log = e :: rest → (∀ c, e.deed ≠ .answer c) → (∀ run, e.deed ≠ .begin run) →
    n.world.Fades e.deed (n.perform settings e).world
      ∨ ∃ r rest', e.deed = .mark r true ∧ rest = ⟨e.time, .mark r false⟩ :: rest'
        ∧ n.world.Fades (.mark r false)
          ((n.perform settings e).perform settings ⟨e.time, .mark r false⟩).world

theorem Hushed.fading (h : n.Hushed) (hl : n.Lawful settings log) (hb : n.Brief settings log) :
    n.Fading settings log := by
  rintro ⟨t, d⟩ rest rfl hcall hbegin
  by_cases hmark : ∃ r, d = .mark r true
  · obtain ⟨r, rfl⟩ := hmark
    obtain ⟨rest', hrest⟩ := hb.1 r rfl h.live
    refine .inr ⟨r, rest', rfl, hrest, ?_⟩
    have hw : (n.world.setLooping r.id r.generation true).setLooping r.id r.generation false
        = n.world.setLooping r.id r.generation false := World.setLooping_setLooping ..
    simp only [Moment.perform, World.perform, hw]
    exact .unmark r
  · exact .inl (h.fades hl.2.1 hcall hbegin fun r hr => hmark ⟨r, hr⟩)

theorem brief_append {log' : List Entry} (h : n.Brief settings log)
    (h' : (n.after settings log).Brief settings log') : n.Brief settings (log ++ log') := by
  induction log generalizing n with
  | nil => exact h'
  | cons e log ih =>
    refine ⟨fun r hr hl => ?_, ih h.2 h'⟩
    obtain ⟨rest, rfl⟩ := h.1 r hr hl
    exact ⟨rest ++ log', rfl⟩

theorem brief_of_append {log' : List Entry} (h : n.Brief settings (log ++ log')) :
    (n.after settings log).Brief settings log' := by
  induction log generalizing n with
  | nil => exact h
  | cons e log ih => exact ih h.2

theorem brief_of_ne (h : ∀ e ∈ log, ∀ r, e.deed ≠ .mark r true) : n.Brief settings log := by
  induction log generalizing n with
  | nil => trivial
  | cons e log ih =>
    exact ⟨fun r hr => absurd hr (h e List.mem_cons_self r),
      ih fun e' he' => h e' (List.mem_cons_of_mem e he')⟩

theorem brief_log {now : Nat} {ds : List Deed} {s : Scene} (h : ∀ d ∈ ds, ∀ r, d ≠ .mark r true) :
    n.Brief settings (s.log settings now ds) := by
  refine brief_of_ne fun e he r hr => ?_
  rcases (Scene.of_mem_log settings now he).2 with hd | hd
  · exact h _ hd r hr
  · rw [hr] at hd
    cases hd

end Moment

namespace Performer

variable {settings : Settings} {now : Nat} {n : Moment} {p : Performer} {s : Scene}

/-- A step marks its sprite as inside a loop only as it enters one, and does nothing else then. -/
theorem stepDeeds_cases (settings : Settings) (now : Nat) (p : Performer) (s : Scene) :
    (∀ d ∈ p.stepDeeds settings now s, ∀ r, d ≠ .mark r true)
      ∨ p.stepDeeds settings now s = [.mark p.role true]
        ∧ ∃ l, (p.step settings now s).2 = some (p.enter (.looping l)) := by
  have hc := p.step_case settings now s
  generalize p.stepDeeds settings now s = ds at hc ⊢
  generalize (p.step settings now s).2 = next at hc ⊢
  cases hc with
  | enterLoop hp hb => exact .inr ⟨rfl, _, rfl⟩
  | _ => exact .inl (by simp [exit])

theorem turnDeeds_of_stopped {l : Loop} (hp : p.phase = .looping l) (hs : p.isStopped s.world) :
    p.turnDeeds settings now s = p.exit := by
  have hgo : ¬ p.mayGoOn s.world := by simp [mayGoOn, hs]
  have hnone : (p.step settings now s).2 = none ∧ p.stepDeeds settings now s = p.exit := by
    simp only [step, stepDeeds, hp]
    rcases l.next? with _ | ⟨b, l'⟩
    · exact ⟨rfl, rfl⟩
    · simp only [hgo]
      exact ⟨rfl, rfl⟩
  rw [turnDeeds_of_none settings now hnone.1, hnone.2]

theorem brief_turn (hw : n.world = s.world) (hr : s.world.runs.Holds p.run) :
    n.Brief settings (s.log settings now (p.turnDeeds settings now s)) := by
  fun_induction turn settings now p s generalizing n with
  | case1 p s after =>
    rename_i h
    rw [turnDeeds_of_none settings now h]
    rcases p.stepDeeds_cases settings now s with hd | ⟨-, l, hl⟩
    · exact Moment.brief_log hd
    · cases h.symm.trans hl
  | case2 p s after p' =>
    rename_i h hrun ih
    have hr' : after.1.world.runs.Holds p'.run := by
      have hrun' : p'.run = p.run := congrArg Role.run (role_of_step settings now h)
      rw [hrun']
      exact ((keeps_step settings now p s).2 p.run).2 hr
    have hafter : after.1 = s.performAll settings now (p.stepDeeds settings now s) :=
      p.step_scene settings now s
    have hrest := ih (n := n.after settings (s.log settings now (p.stepDeeds settings now s)))
      (by rw [hafter]; exact Moment.world_log _ hw) hr'
    rw [turnDeeds_of_runnable settings now h hrun, Scene.log_append, ← hafter]
    rcases p.stepDeeds_cases settings now s with hd | ⟨hmark, l, hl⟩
    · exact Moment.brief_append (Moment.brief_log hd) hrest
    · obtain rfl := Option.some.inj (h.symm.trans hl)
      rw [hmark, Scene.log_mark] at hrest ⊢
      refine ⟨fun r hmark' hlive => ?_, hrest⟩
      obtain rfl := (Deed.mark.inj hmark').1
      have hruns : after.1.world.runs = s.world.runs := by
        rw [hafter, hmark, Scene.performAll_cons, Scene.perform_mark]
        rfl
      have hstopped : (p.enter (.looping l)).isStopped after.1.world := by
        rw [isStopped, hruns, RunBook.isStopped, List.contains_iff_mem]
        rw [hw] at hlive
        exact hr.resolve_left fun h => by cases hlive.symm.trans h
      rw [turnDeeds_of_stopped rfl hstopped]
      exact ⟨_, rfl⟩
  | case3 p s after p' =>
    rename_i h hrun
    rw [turnDeeds_of_not_runnable settings now h hrun]
    rcases p.stepDeeds_cases settings now s with hd | ⟨-, l, hl⟩
    · exact Moment.brief_log hd
    · obtain rfl := Option.some.inj (h.symm.trans hl)
      exact absurd rfl hrun

end Performer

namespace Course

variable {settings : Settings} {x : Course} {n : Moment}

theorem brief_move (h : n.Agrees x.clock x.engine) (m : Move) :
    n.Brief settings (x.engine.scene.log settings x.clock (x.deeds settings m)) := by
  cases m with
  | call c =>
    exact Moment.brief_log fun d hd r hr => by cases (List.mem_singleton.1 hd).symm.trans hr
  | play =>
    refine Moment.brief_log ?_
    rintro d hd r rfl
    simp only [deeds] at hd
    split at hd
    · rcases List.mem_cons.1 hd with hd | hd
      · cases hd
      · cases Show.eq_of_mem_finishDeeds hd
    · cases hd
  | alarms =>
    refine Moment.brief_log ?_
    rintro d hd r rfl
    rcases List.mem_cons.1 hd with hd | hd
    · cases hd
    · obtain ⟨a, -, ha⟩ := List.mem_map.1 hd
      cases ha
  | performer place =>
    simp only [deeds]
    split
    · rename_i p hp
      have hmem : p ∈ x.engine.performers := Show.mem_of_around (performers_around hp)
      rw [Show.performerDeeds, Scene.log_append]
      refine Moment.brief_append (p.brief_turn h.world (h.serves.1 p hmem)) ?_
      refine Moment.brief_log ?_
      rintro d hd r rfl
      split at hd
      · cases Show.eq_of_mem_finishDeeds hd
      · cases hd
    · trivial
  | pass duration => trivial

theorem brief_run (settings : Settings) (listening : Listening) (reactions : List Reaction)
    (ms : List Move) :
    Moment.start.Brief settings ((start listening reactions).run settings ms).chronicle :=
  (chronicle_induction (P := fun log => Moment.start.Brief settings log) trivial
    (fun _ m ha h => Moment.brief_append h (brief_move ha m)) listening reactions ms).1

/-- Let a stop be somewhere in the chronicle of any moves.  It ends the life of the run, the
messages and their alarms, and nothing else.  The run that was live has ended as stopped when the
engine has settled, and in a patient course it ends at the time of the stop.  From the stop until
another run begins nobody says anything, no alarm of a message is set, and on its own the engine
only lets highlights go out and takes sprites out of their loops. -/
theorem silence_after_stop (listening : Listening) (reactions : List Reaction) (ms : List Move)
    (hx : (start listening reactions).run settings ms = x) {pre post : List Entry} {t : Nat}
    (hstop : x.chronicle = pre ++ ⟨t, .answer .stop⟩ :: post) :
    (Moment.start.after settings pre).world.Stops
        (Moment.start.after settings (pre ++ [⟨t, .answer .stop⟩])).world
      ∧ (∀ run, (Moment.start.after settings pre).world.runs.live = some run →
        (x.engine.settle settings x.clock).world.runs.outcome? run = some .stopped
          ∧ ((start listening reactions).Patient settings ms →
            x.engine.turn? settings x.clock = none ∨ t < x.clock → ⟨t, .finish run⟩ ∈ post))
      ∧ ∀ mid rest, post = mid ++ rest → (∀ e ∈ mid, ∀ run, e.deed ≠ .begin run) →
        (Moment.start.after settings (pre ++ ⟨t, .answer .stop⟩ :: mid)).world.Silent
          ∧ (Moment.start.after settings (pre ++ ⟨t, .answer .stop⟩ :: mid)).Fading settings rest := by
  have hlaw := lawful_run settings listening reactions ms
  have hbrief := brief_run settings listening reactions ms
  rw [hx, hstop] at hlaw hbrief
  refine ⟨?_, fun run hlive => ⟨outcome?_settle_of_stop hx hstop hlive, fun hpatient h =>
    ended_at_stop hpatient hx hstop hlive h⟩, ?_⟩
  · obtain ⟨table, hk⟩ := ((Moment.lawful_append settings _ _ _).1 hlaw).1.exists_kept
    rw [Moment.after_append]
    exact World.stops_stop hk
  · rintro mid rest rfl hbegin
    rw [← List.cons_append, ← List.append_assoc] at hlaw hbrief
    obtain ⟨hlaw, hrest⟩ := (Moment.lawful_append settings _ _ _).1 hlaw
    obtain ⟨table, hk⟩ := hlaw.exists_kept
    have hmid := ((Moment.lawful_append settings _ _ _).1 hlaw).2.2.2
    have hhushed :=
      (Moment.hushed_stop (Moment.start.after settings pre) settings t).after hmid hbegin
    rw [← Moment.after_cons, ← Moment.after_append] at hhushed
    exact ⟨World.silent_of_kept hk hhushed.bubble,
      hhushed.fading hrest (Moment.brief_of_append hbrief)⟩

/-- A loop that is stopped before its first pass. -/
theorem silence_after_stopped_loop : ∃ x pre post,
    (start .ignoring []).run .default [.call (.register "a" .center
        [⟨"1", .loop 3⟩, ⟨"2", .move 10⟩] "t"), .play, .call .stop] = x
      ∧ x.chronicle = pre ++ ⟨0, .answer .stop⟩ :: post
      ∧ (Moment.start.after .default pre).world.runs.live = some 0
      ∧ (x.engine.settle .default x.clock).world.runs.outcome? 0 = some .stopped
      ∧ (Moment.start.after .default (pre ++ [⟨0, .answer .stop⟩])).world.Silent := by
  generalize hc : Call.register "a" .center [⟨"1", .loop 3⟩, ⟨"2", .move 10⟩] "t" = c
  generalize hw : (World.initial.perform .default 0 (.answer c)).1 = w
  obtain ⟨a, log, hx, hwait⟩ : ∃ a log, (start .ignoring []).move .default (.call c)
      = ⟨0, ⟨⟨w, a⟩, []⟩, log⟩ ∧ a.waiting = [] := by
    obtain ⟨hworld, hwait⟩ := Scene.perform_quiet .default 0
      (s := (start .ignoring []).engine.scene) rfl (.answer c)
    refine ⟨_, ((start .ignoring []).move .default (.call c)).chronicle, ?_, hwait⟩
    rw [← hw, show (World.initial.perform .default 0 (.answer c)).1 = _ from hworld.symm]
    rfl
  obtain ⟨y, hy⟩ : ∃ y, (start .ignoring []).run .default [.call c, .play] = y := ⟨_, rfl⟩
  have hplay : (Course.mk 0 ⟨⟨w, a⟩, []⟩ log).move .default .play = y := by
    rw [← hy, ← hx]
    rfl
  have hlive : y.engine.world.runs.live = some 0 := by
    rw [← hplay, ← hw, ← hc]
    rfl
  have hclock : y.clock = 0 := by
    rw [← hplay]
    rfl
  obtain ⟨ns, hstop⟩ := chronicle_call_quiet .default (x := y)
    (by rw [← hy]; exact quiet_run .default rfl _) .stop
  have hpre : (Moment.start.after .default y.chronicle).world.runs.live = some 0 := by
    have hagree := agrees_run .default .ignoring [] [.call c, .play]
    rw [hy] at hagree
    rw [hagree.world, hlive]
  have hrun : (start .ignoring []).run .default [.call c, .play, .call .stop]
      = y.move .default (.call .stop) := by
    rw [← hy]
    rfl
  rw [hclock] at hstop
  obtain ⟨-, hended, hquiet⟩ := silence_after_stop .ignoring [] _ hrun hstop
  exact ⟨_, _, _, hrun, hstop, hpre, (hended 0 hpre).1,
    (hquiet [] _ rfl fun e he => by cases he).1⟩

end Course

end SpriteCanvas
