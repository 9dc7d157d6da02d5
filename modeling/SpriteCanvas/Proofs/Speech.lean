import SpriteCanvas.Proofs.Lawful
import SpriteCanvas.Proofs.Quiet
import SpriteCanvas.Proofs.Timekeeping

/-!
# What sprites say

What a sprite said last can be read off a chronicle: a stop and the removal of the sprite end it,
and nothing else does (`spoken`).  A sprite shows that, until its time is over (`message_run`).
-/

namespace SpriteCanvas

/-- What a sprite said last, and until when, after a deed. -/
def Deed.said (settings : Settings) (now : Nat) (id : SpriteId) (before : Option (String × Nat)) :
    Deed → Option (String × Nat)
  | .execute r b => if r.id = id then (b.command.speech? settings now).or before else before
  | .answer .stop => none
  | .answer (.unregister i) => if i = id then none else before
  | _ => before

/-- What a sprite said last, if it said something since it was registered and since the last stop:
the text, and when its time is over. -/
def spoken (settings : Settings) (id : SpriteId) (log : List Entry) : Option (String × Nat) :=
  log.foldl (fun before e => e.deed.said settings e.time id before) none

theorem spoken_concat (settings : Settings) (id : SpriteId) (log : List Entry) (e : Entry) :
    spoken settings id (log ++ [e]) = e.deed.said settings e.time id (spoken settings id log) := by
  simp [spoken]

namespace World

variable {settings : Settings} {now : Nat} {w : World} {id : SpriteId}
  {before : Option (String × Nat)}

/-- Whatever a world shows as the message of a sprite is the text that was said last. -/
def Says (w : World) (id : SpriteId) (said : Option (String × Nat)) : Prop :=
  ∀ b, w.cast.bubble? id = some b → said.map (·.1) = some b.text

theorem Says.congr {w' : World} (h : w.Says id before)
    (hb : w'.cast.bubble? = w.cast.bubble?) : w'.Says id before := by
  intro b
  rw [hb]
  exact h b

theorem says_of_none {said : Option (String × Nat)} (h : w.cast.bubble? id = none) :
    w.Says id said := by
  intro b hb
  cases h.symm.trans hb

theorem says_apply (settings : Settings) (now : Nat) (h : w.Says id before) {m : Member}
    (hm : w.cast.find? m.id = some m) (c : Command) :
    (w.apply settings now m c).Says id
      (if m.id = id then (c.speech? settings now).or before else before) := by
  intro b hb
  rw [bubble?_apply settings now hm c] at hb
  rcases hc : c.speech? settings now with _ | speech
  · rw [hc] at hb
    rw [Option.none_or, ite_self]
    exact h b hb
  · rw [hc] at hb
    dsimp only at hb
    split
    · rename_i hid
      rw [hid, Function.update_self] at hb
      cases hb
      rfl
    · rename_i hid
      rw [Function.update_of_ne (Ne.symm hid)] at hb
      exact h b hb

theorem says_execute (settings : Settings) (now : Nat) (h : w.Says id before) {m : Member}
    (hm : w.cast.find? m.id = some m) (c : Command) :
    (w.execute settings now m c).1.Says id
      (if m.id = id then (c.speech? settings now).or before else before) := by
  have ha := says_apply settings now h hm c
  unfold execute
  dsimp only
  split
  · exact ha.congr (bubble?_strikeAll settings now _ _)
  · exact ha

theorem says_reply (h : w.Says id before) (c : Call) :
    (w.reply settings now c).world.Says id ((Deed.answer c).said settings now id before) := by
  cases c with
  | register i position script target =>
    exact h.congr (Cast.bubble?_register target position script)
  | unregister i =>
    intro b hb
    have hu : (w.unregister i).1.cast.bubble? id = some b := hb
    rw [bubble?_unregister] at hu
    show (if i = id then none else before).map _ = _
    split at hu
    · cases hu
    · rename_i hid
      rw [if_neg (Ne.symm hid)]
      exact h b hu
  | setPosition i position => exact h.congr (Cast.bubble?_update_of_same fun g => rfl)
  | setScript i script => exact h.congr (Cast.bubble?_setScript script)
  | queueCheck i =>
    unfold reply
    dsimp only
    split <;> exact h
  | checkAll => exact h.congr (bubble?_strikeAll settings now _ w)
  | drainChecks => exact h.congr (bubble?_strikeAll settings now _ { w with checks := .empty })
  | stop => exact says_of_none (bubble?_hushAll _ id)
  | _ => exact h

theorem says_perform (h : w.Says id before) (d : Deed) :
    (w.perform settings now d).1.Says id (d.said settings now id before) := by
  cases d with
  | answer c => exact says_reply h c
  | tell n => exact h
  | leave r => exact h
  | finish run => exact h
  | collect => exact h
  | begin run =>
    simp only [perform]
    split <;> exact h
  | execute r b =>
    simp only [perform]
    split
    · rename_i m hm
      have hid := Cast.id_of_find? hm
      have he := says_execute settings now h (hid ▸ hm) b.command
      rwa [hid] at he
    · rename_i hm
      show w.Says id (if r.id = id then _ else before)
      split
      · rename_i hid
        refine says_of_none ?_
        rw [Cast.bubble?, ← hid, hm]
        rfl
      · exact h
  | mark r looping =>
    exact h.congr ((setLooping_redraws w r.id r.generation looping).bubble?_eq fun _ _ h => h.1)
  | drain r => exact h.congr (bubble?_strikeAll settings now _ { w with checks := .empty })
  | ring alarm expiry =>
    rcases bubble?_ring w alarm expiry id with hb | hb
    · exact fun b hb' => h b (hb ▸ hb')
    · exact says_of_none hb

/-- What is said puts its time into the timetable. -/
theorem retimed_message {table : Timetable} (h : table (.message id) = before.map (·.2))
    (d : Deed) :
    w.retimed settings now d table (.message id) = (d.said settings now id before).map (·.2) := by
  cases d with
  | execute r b =>
    show b.command.retime settings now r.id table (.message id)
      = (if r.id = id then (b.command.speech? settings now).or before else before).map (·.2)
    unfold Command.retime
    rcases b.command.speech? settings now with _ | speech
    · rw [Option.none_or, ite_self]
      exact h
    · by_cases hid : r.id = id
      · subst hid
        rw [if_pos rfl]
        exact Function.update_self ..
      · rw [if_neg hid, ← h]
        exact Function.update_of_ne (fun he => hid (Expiry.message.inj he).symm) ..
  | answer c =>
    cases c with
    | stop => rfl
    | unregister i =>
      show (if id = i then none else table (.message id))
        = (if i = id then none else before).map (·.2)
      by_cases hid : i = id
      · rw [if_pos hid, if_pos hid.symm]
        rfl
      · rw [if_neg hid, if_neg (Ne.symm hid), h]
    | _ => exact h
  | _ => exact h

/-- While no alarm is due, a sprite shows what it said last until its time is over. -/
theorem bubble?_of_kept {clock : Nat} {table : Timetable} {said : Option (String × Nat)}
    (hk : w.Kept [] clock table) (ht : table (.message id) = said.map (·.2)) (hs : w.Says id said)
    (hd : w.alarms.schedule.nextDeadline.1.any (· ≤ clock) = false) :
    (w.cast.bubble? id).map (·.text)
      = said.bind fun s => if clock < s.2 then some s.1 else none := by
  have hiff := Alarms.Kept.isSome_iff (e := .message id) hk hd
  rw [ht, show w.slots (.message id) = (w.cast.bubble? id).map (·.alarm) from rfl,
    Option.isSome_map] at hiff
  rcases said with _ | ⟨text, deadline⟩
  · rcases hb : w.cast.bubble? id with _ | b
    · rfl
    · cases hs b hb
  · simp only [Option.map_some, Option.some.injEq, exists_eq_left'] at hiff
    simp only [Option.bind_some]
    by_cases hlt : clock < deadline
    · obtain ⟨b, hb⟩ := Option.isSome_iff_exists.1 (hiff.2 hlt)
      rw [if_pos hlt, hb, Option.map_some]
      exact (hs b hb).symm
    · rw [if_neg hlt]
      rcases hb : w.cast.bubble? id with _ | b
      · rfl
      · exact absurd (hiff.1 (hb ▸ rfl)) hlt

end World

namespace Course

variable (settings : Settings) (listening : Listening) (reactions : List Reaction)
  (ms : List Move)

/-- The world keeps a timetable in which every sprite has the time of what it said last. -/
theorem exists_kept_run : ∃ table : Timetable,
    ((start listening reactions).run settings ms).engine.world.Kept []
        ((start listening reactions).run settings ms).clock table
      ∧ ∀ id, table (.message id)
          = (spoken settings id ((start listening reactions).run settings ms).chronicle).map (·.2)
        ∧ ((start listening reactions).run settings ms).engine.world.Says id
          (spoken settings id ((start listening reactions).run settings ms).chronicle) := by
  have hlaw := lawful_run settings listening reactions ms
  have hagree := agrees_run settings listening reactions ms
  obtain ⟨table, hk, hsaid⟩ := hlaw.induction (P := fun log n => ∃ table : Timetable,
    n.world.Kept n.ringing n.clock table
      ∧ ∀ id, table (.message id) = (spoken settings id log).map (·.2)
        ∧ n.world.Says id (spoken settings id log))
    ⟨fun _ => none, World.kept_initial, fun id => ⟨rfl, World.says_of_none rfl⟩⟩
    fun e _ log n hn ht ha => by
      obtain ⟨table, hk, hsaid⟩ := hn
      refine ⟨_, Moment.kept_perform hk ht ha, fun id => ?_⟩
      rw [spoken_concat]
      exact ⟨World.retimed_message (hsaid id).1 e.deed, World.says_perform (hsaid id).2 e.deed⟩
  rw [hagree.world] at hk hsaid
  rw [hagree.ringing] at hk
  exact ⟨table, Alarms.Kept.mono hk hagree.clock, hsaid⟩

/-- After any moves and while no alarm is due, as in every settled engine
(`Show.alarmIsDue_of_turn?`): a sprite shows what it said last since it was registered, if no stop
came later and its time is not over, and nothing otherwise. -/
theorem message_run {id : SpriteId} {m : Member}
    (hd : ((start listening reactions).run settings ms).engine.alarmIsDue
      ((start listening reactions).run settings ms).clock = false)
    (hm : ((start listening reactions).run settings ms).engine.world.cast.find? id = some m) :
    m.figure.snapshot.message
      = (spoken settings id ((start listening reactions).run settings ms).chronicle).bind fun s =>
          if ((start listening reactions).run settings ms).clock < s.2 then some s.1 else none := by
  obtain ⟨table, hk, hsaid⟩ := exists_kept_run settings listening reactions ms
  have hb := World.bubble?_of_kept hk (hsaid id).1 (hsaid id).2 hd
  rw [Cast.bubble?, hm] at hb
  exact hb

/-- What is shown of a message of two seconds after the first one. -/
theorem message_of_two_seconds : ∃ ms,
    ((start .ignoring []).run .default ms).engine.alarmIsDue
        ((start .ignoring []).run .default ms).clock = false
      ∧ some "hi"
        = (spoken .default "a" ((start .ignoring []).run .default ms).chronicle).bind fun s =>
          if ((start .ignoring []).run .default ms).clock < s.2 then some s.1 else none := by
  generalize hb : Block.mk "1" (.say "hi" 2) = b
  generalize hp : Performer.mk "a" 1 0 (.opening [b]) = p
  generalize hc : Call.register "a" .center [b] "t" = c
  generalize hw : (World.initial.perform .default 0 (.answer c)).1 = w
  obtain ⟨a, log, hx, hwait⟩ : ∃ a log, (start .ignoring []).move .default (.call c)
      = ⟨0, ⟨⟨w, a⟩, []⟩, log⟩ ∧ a.waiting = [] := by
    obtain ⟨hworld, hwait⟩ := Scene.perform_quiet .default 0
      (s := (start .ignoring []).engine.scene) rfl (.answer c)
    refine ⟨_, ((start .ignoring []).move .default (.call c)).chronicle, ?_, hwait⟩
    rw [← hw, show (World.initial.perform .default 0 (.answer c)).1 = _ from hworld.symm]
    rfl
  obtain ⟨y, hy, hclock, hengine⟩ : ∃ y, (Course.mk 0 ⟨⟨w, a⟩, []⟩ log).move .default .play = y
      ∧ y.clock = 0 ∧ y.engine = ⟨⟨{ w with runs := ⟨1, some 0, [], []⟩ }, a⟩, [p]⟩ := by
    rw [← hw, ← hc, ← hp]
    exact ⟨_, rfl, rfl, rfl⟩
  obtain ⟨runs, hworld⟩ := world_performer_quiet .default (x := y) (p := p) (b := b)
    (by rw [hengine]; exact hwait) (by rw [hengine]) (by rw [← hp]) (by rw [← hb]; exact nofun)
    (by rw [hengine, ← hw, ← hc, ← hp]; rfl)
  generalize hz : y.move .default (.performer 0) = z at hworld
  obtain ⟨g, hfind, hsays, hsched⟩ : ∃ g,
      z.engine.world.cast.find? "a" = some ⟨"a", "t", g, [b], 1⟩
      ∧ g.snapshot.message = some "hi"
        ∧ z.engine.world.alarms.schedule = ⟨.node ⟨Duration.deadline 0 0 (Duration.ofSeconds 2), 1⟩
          .nil .nil, [(1, .message "a")]⟩ := by
    rw [hworld, hengine, hclock, ← hw, ← hc, ← hp, ← hb]
    exact ⟨_, rfl, rfl, rfl⟩
  have hrun : (start .ignoring []).run .default
      [.call c, .play, .performer 0, .pass Duration.second]
      = z.move .default (.pass Duration.second) := by
    simp only [run, hx, hy, hz]
  have hd : (z.move .default (.pass Duration.second)).engine.alarmIsDue
      (z.move .default (.pass Duration.second)).clock = false := by
    have hlater : ¬ Duration.deadline 0 0 (Duration.ofSeconds 2) ≤ Duration.second := by
      decide +kernel
    have hz0 : z.clock = 0 := by
      rw [← hz]
      exact hclock
    show (z.engine.world.alarms.schedule.nextDeadline.1.any (· ≤ z.clock + Duration.second)) = false
    rw [hz0, Nat.zero_add, hsched, Schedule.nextDeadline, Schedule.purge]
    simpa [Heap.peek?] using hlater
  rw [← hrun] at hd
  refine ⟨_, hd, hsays.symm.trans ?_⟩
  refine message_run .default .ignoring [] _ hd (m := ⟨"a", "t", g, [b], 1⟩) ?_
  rw [hrun]
  exact hfind

end Course

end SpriteCanvas
