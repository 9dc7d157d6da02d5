import SpriteCanvas.Proofs.Course
import SpriteCanvas.Proofs.Turns

/-!
# The chronicle of every course is lawful

After any moves the moment that the chronicle comes to is the state of the engine
(`Course.agrees_run`), and each entry was allowed when it happened (`Course.lawful_run`).
-/

namespace SpriteCanvas

/-- Everybody who has not left stands among the performers, once, and at the place that is left to
run. -/
structure Cues (todo : Role → Option Script) (ps : List Performer) : Prop where
  nodup : (ps.map Performer.role).Nodup
  todo_of_mem : ∀ p ∈ ps, todo p.role = some p.phase.todo
  mem_of_todo : ∀ r script, todo r = some script → ∃ p ∈ ps, p.role = r

namespace Cues

variable {todo : Role → Option Script} {p p' : Performer} {ps qs : List Performer}

theorem perm (h : Cues todo ps) (hp : ps.Perm qs) : Cues todo qs where
  nodup := (hp.map _).nodup h.nodup
  todo_of_mem p hmem := h.todo_of_mem p (hp.mem_iff.2 hmem)
  mem_of_todo r script hr := by
    obtain ⟨p, hmem, hrole⟩ := h.mem_of_todo r script hr
    exact ⟨p, hp.mem_iff.1 hmem, hrole⟩

/-- The first performer leaves, or goes on with the same part at another place. -/
theorem update (h : Cues todo (p :: ps)) (next : Option Performer)
    (hnext : ∀ q, next = some q → q.role = p.role) :
    Cues (Function.update todo p.role (next.map (·.phase.todo))) (next.toList ++ ps) := by
  obtain ⟨hp, hps⟩ := List.nodup_cons.1 h.nodup
  have hne : ∀ q ∈ ps, q.role ≠ p.role := fun q hq hr => hp (hr ▸ List.mem_map_of_mem hq)
  refine ⟨?_, fun q hq => ?_, fun r script hr => ?_⟩
  · cases next with
    | none => exact hps
    | some q =>
      refine List.nodup_cons.2 ⟨?_, hps⟩
      rwa [hnext q rfl]
  · rcases List.mem_append.1 hq with hq | hq
    · obtain rfl := Option.mem_toList.1 hq
      rw [hnext q rfl, Function.update_self]
      rfl
    · rw [Function.update_of_ne (hne q hq)]
      exact h.todo_of_mem q (List.mem_cons_of_mem p hq)
  · by_cases hrole : r = p.role
    · subst hrole
      rw [Function.update_self] at hr
      obtain ⟨q, rfl, -⟩ := Option.map_eq_some_iff.1 hr
      exact ⟨q, by simp, hnext q rfl⟩
    · rw [Function.update_of_ne hrole] at hr
      obtain ⟨q, hq, rfl⟩ := h.mem_of_todo r script hr
      rcases List.mem_cons.1 hq with rfl | hq
      · exact absurd rfl hrole
      · exact ⟨q, List.mem_append_right _ hq, rfl⟩

end Cues

namespace Show

theorem join_perm (p : Performer) : ∀ ps : List Performer, (join p ps).Perm (p :: ps)
  | [] => .refl _
  | q :: rest => by
    unfold join
    split
    · exact .refl _
    · exact ((join_perm p rest).cons q).trans (.swap p q rest)

theorem foldl_join_perm (entering ps : List Performer) :
    (entering.foldl (fun ps p => join p ps) ps).Perm (entering ++ ps) := by
  induction entering generalizing ps with
  | nil => exact .refl ps
  | cons p entering ih =>
    refine (ih (join p ps)).trans (((join_perm p ps).append_left entering).trans ?_)
    exact List.perm_middle

/-- A performer for every sprite. -/
def entering (w : World) (run : RunId) : List Performer :=
  w.cast.members.map fun m =>
    ({ id := m.id, generation := m.generation, run := run, phase := .opening m.script } :
      Performer)

theorem run_of_mem_entering {w : World} {run : RunId} {p : Performer} (hp : p ∈ entering w run) :
    p.run = run := by
  obtain ⟨m, -, rfl⟩ := List.mem_map.1 hp
  rfl

end Show

/-- Everybody who is registered joins a new run. -/
theorem Cues.begin {todo : Role → Option Script} {ps : List Performer} (h : Cues todo ps)
    (w : World) {run : RunId} (hrun : ∀ p ∈ ps, p.run ≠ run) :
    Cues (fun r => if r.run = run then w.score r else todo r) (Show.entering w run ++ ps) := by
  refine ⟨?_, fun p hp => ?_, fun r script hr => ?_⟩
  · rw [List.map_append]
    refine List.nodup_append.2 ⟨?_, h.nodup, ?_⟩
    · simp only [Show.entering, List.map_map]
      refine List.Pairwise.map _ (fun m n hmn heq => ?_) w.cast.sorted
      exact Std.ne_of_lt hmn (congrArg Role.id heq)
    · intro r hr r' hr' heq
      obtain ⟨p, hp, rfl⟩ := List.mem_map.1 hr
      obtain ⟨q, hq, rfl⟩ := List.mem_map.1 hr'
      exact hrun q hq ((congrArg Role.run heq).symm.trans (Show.run_of_mem_entering hp))
  · rcases List.mem_append.1 hp with hp | hp
    · obtain ⟨m, hm, rfl⟩ := List.mem_map.1 hp
      exact (if_pos rfl).trans (World.score_of_mem hm run)
    · have hr : p.role.run ≠ run := hrun p hp
      rw [if_neg hr]
      exact h.todo_of_mem p hp
  · by_cases hrr : r.run = run
    · rw [if_pos hrr] at hr
      obtain ⟨m, hm, -⟩ := Option.map_eq_some_iff.1 hr
      obtain ⟨hm, hg⟩ := Option.filter_eq_some_iff.1 hm
      refine ⟨_, List.mem_append_left ps (List.mem_map_of_mem (Cast.mem_of_find? hm)), ?_⟩
      obtain ⟨rrun, id, generation⟩ := r
      simp only [Performer.role, Role.mk.injEq]
      exact ⟨hrr.symm, Cast.id_of_find? hm, by simpa using hg⟩
    · rw [if_neg hrr] at hr
      obtain ⟨p, hp, hrole⟩ := h.mem_of_todo r script hr
      exact ⟨p, List.mem_append_right _ hp, hrole⟩

/-- The run of every performer is live or was stopped, and has begun. -/
def RunBook.Serves (b : RunBook) (ps : List Performer) : Prop :=
  (∀ p ∈ ps, b.Holds p.run) ∧ b.Counted

namespace RunBook.Serves

variable {b b' : RunBook} {ps qs : List Performer} {run : RunId}

theorem keeps (h : b.Serves ps) (hb : b.Keeps b') : b'.Serves ps :=
  ⟨fun p hp => (hb.2 _).2 (h.1 p hp), h.2.keeps hb⟩

theorem of_runs (h : b.Serves ps) (hq : ∀ q ∈ qs, ∃ p ∈ ps, q.run = p.run) : b.Serves qs := by
  refine ⟨fun q hmem => ?_, h.2⟩
  obtain ⟨p, hp, hr⟩ := hq q hmem
  exact hr ▸ h.1 p hp

theorem finish (h : b.Serves ps) (hr : ∀ p ∈ ps, p.run ≠ run) : (b.finish run).Serves ps :=
  ⟨fun p hp => holds_finish (h.1 p hp) (hr p hp), h.2.finish run⟩

theorem begin (h : b.Serves ps) (hb : b.begin? = some (run, b'))
    (hq : ∀ q ∈ qs, q.run = run) : b'.Serves (qs ++ ps) := by
  refine ⟨fun p hp => ?_, h.2.begin? hb⟩
  have hl := live_of_begin? hb
  rw [begin?, hl] at hb
  cases hb
  rcases List.mem_append.1 hp with hp | hp
  · exact .inl (congrArg some (hq p hp).symm)
  · rcases h.1 p hp with hr | hr
    · rw [hl] at hr
      cases hr
    · exact .inr hr

end RunBook.Serves

namespace Show

variable {settings : Settings} {now : Nat} {m : Moment} {s : Scene} {ps : List Performer}

theorem serves_finishDeeds (run : RunId) (h : s.world.runs.Serves ps) :
    (s.performAll settings now (finishDeeds run ps)).world.runs.Serves ps := by
  unfold finishDeeds
  split
  · exact h
  · rename_i hnone
    rw [Scene.performAll_cons, Scene.performAll_nil, Scene.perform_finish]
    exact h.finish fun p hp hr => hnone (List.any_eq_true.2 ⟨p, hp, by simpa using hr⟩)

/-- A run ends when nobody is left in it. -/
theorem brings_finishDeeds {run : RunId} (hrun : run < s.world.runs.begun)
    (hw : m.world = s.world) (hc : m.clock ≤ now) (ht : Cues m.todo ps) :
    m.Brings settings now (s.log settings now (finishDeeds run ps))
      (s.performAll settings now (finishDeeds run ps)).world m.ringing m.todo := by
  unfold finishDeeds
  split
  · rw [Scene.performAll_nil, ← hw]
    exact .nil hc
  · rename_i hnone
    refine Moment.brings_log_singleton hw hc ⟨hw ▸ hrun, fun r hr => ?_⟩
    rcases htodo : m.todo r with _ | script
    · rfl
    · obtain ⟨p, hp, rfl⟩ := ht.mem_of_todo r script htodo
      have hr : p.run = run := hr
      exact absurd (List.any_eq_true.2 ⟨p, hp, by simpa using hr⟩) hnone

/-- The alarms that were taken ring one after the other. -/
theorem brings_rings : ∀ (due : List (AlarmId × Expiry)) {s : Scene} {m : Moment},
    m.world = s.world → m.clock ≤ now → m.ringing = due →
    m.Brings settings now (s.log settings now (due.map fun a => .ring a.1 a.2))
      (s.performAll settings now (due.map fun a => .ring a.1 a.2)).world [] m.todo
  | [], s, m, hw, hc, hr => by
    rw [List.map_nil, Scene.performAll_nil, ← hw, ← hr]
    exact .nil hc
  | (alarm, expiry) :: due, s, m, hw, hc, hr => by
    refine Moment.brings_log_cons hw hc ⟨due, hr⟩ fun n hc hw hr' ht => ?_
    have hb := brings_rings due hw hc (by rw [hr', Moment.ringingAfter, hr]; rfl)
    rw [ht] at hb
    exact hb

end Show

/-- The moment is the state of a show at a time. -/
structure Moment.Agrees (m : Moment) (now : Nat) (s : Show) : Prop where
  clock : m.clock ≤ now
  world : m.world = s.world
  ringing : m.ringing = []
  cues : Cues m.todo s.performers
  serves : s.world.runs.Serves s.performers

namespace Show

variable {settings : Settings} {now : Nat} {m : Moment} {s s' : Show}

/-- A lawful stretch of a chronicle leads from one state to another. -/
def Follows (settings : Settings) (now : Nat) (m : Moment) (log : List Entry) (s : Show) : Prop :=
  m.Lawful settings log ∧ (m.after settings log).Agrees now s

theorem follows_of_brings {log : List Entry} {todo : Role → Option Script}
    (hb : m.Brings settings now log s.world [] todo) (ht : Cues todo s.performers)
    (hs : s.world.runs.Serves s.performers) : Follows settings now m log s :=
  ⟨hb.lawful, hb.clock, hb.world, hb.ringing, hb.todo ▸ ht, hs⟩

theorem follows_call (h : m.Agrees now s) (c : Call) :
    Follows settings now m (s.scene.log settings now [.answer c]) (s.call settings now c).2 := by
  have hr : m.ringingAfter now (.answer c) = [] := h.ringing
  have hb : m.Brings settings now (s.scene.log settings now [.answer c]) _ _ _ :=
    Moment.brings_log_singleton h.world h.clock trivial
  rw [hr] at hb
  refine follows_of_brings hb h.cues (h.serves.keeps ?_)
  exact Scene.keeps_perform settings now s.scene (RunBook.keeps_perform_answer _ c)

theorem performers_finishIfDone (run : RunId) (s : Show) :
    (finishIfDone run s).performers = s.performers := by
  unfold finishIfDone
  split <;> rfl

theorem performers_performerTurn (settings : Settings) (now : Nat) (before : List Performer)
    (p : Performer) (after : List Performer) (scene : Scene) :
    (performerTurn settings now before p after scene).performers
      = before.reverse ++ ((p.turn settings now scene).2.toList ++ after) := by
  unfold performerTurn
  split
  · rename_i h
    rw [h]
    rfl
  · rename_i h
    rw [h, performers_finishIfDone]
    rfl

/-- Who is there after a turn stood beside the one whose turn it was, or is that one. -/
theorem beside_or_turn_of_performerTurn {before after : List Performer} {p q : Performer}
    {scene : Scene} (hq : q ∈ (performerTurn settings now before p after scene).performers) :
    q ∈ before.reverse ++ after ∨ (p.turn settings now scene).2 = some q := by
  rw [performers_performerTurn] at hq
  rcases List.mem_append.1 hq with hq | hq
  · exact .inl (List.mem_append_left _ hq)
  · rcases List.mem_append.1 hq with hq | hq
    · exact .inr (Option.mem_toList.1 hq)
    · exact .inl (List.mem_append_right _ hq)

/-- In a turn nobody joins, and only the one whose turn it is leaves or goes on. -/
theorem mem_or_role_of_performerTurn {before after : List Performer} {p q : Performer}
    {scene : Scene} (hq : q ∈ (performerTurn settings now before p after scene).performers) :
    q ∈ before.reverse ++ p :: after ∨ q.role = p.role :=
  (beside_or_turn_of_performerTurn hq).imp
    (fun hq => List.perm_middle.mem_iff.2 (List.mem_cons_of_mem p hq)) Performer.role_of_turn

theorem mem_performerTurn_iff {before after : List Performer} {p q : Performer} {scene : Scene}
    (hne : q.role ≠ p.role) : q ∈ (performerTurn settings now before p after scene).performers
      ↔ q ∈ before.reverse ++ p :: after := by
  refine ⟨fun hq => (mem_or_role_of_performerTurn hq).resolve_right hne, fun hq => ?_⟩
  rw [performers_performerTurn]
  rcases List.mem_append.1 hq with hq | hq
  · exact List.mem_append_left _ hq
  · rcases List.mem_cons.1 hq with rfl | hq
    · exact absurd rfl hne
    · exact List.mem_append_right _ (List.mem_append_right _ hq)

/-- The others have other parts. -/
theorem role_ne_of_around {before after : List Performer} {p : Performer}
    (hnodup : (s.performers.map Performer.role).Nodup)
    (hps : s.performers = before.reverse ++ p :: after) :
    ∀ q ∈ before.reverse ++ after, q.role ≠ p.role := by
  have hperm : s.performers.Perm (p :: (before.reverse ++ after)) := hps ▸ List.perm_middle
  have hnot := (List.nodup_cons.1 ((hperm.map Performer.role).nodup hnodup)).1
  exact fun q hq hrole => hnot (hrole ▸ List.mem_map_of_mem hq)

theorem performers_of_play? {run : RunId} (h : s.play? = some (run, s')) :
    ∃ runs, s.world.runs.begin? = some (run, runs)
      ∧ s'.performers
        = (entering s.world run).foldl (fun ps p => join p ps) s.performers := by
  unfold play? at h
  split at h
  · cases h
  · rename_i runs hb
    cases h
    exact ⟨runs, hb, performers_finishIfDone ..⟩

/-- A run that begins has a performer for every sprite. -/
theorem perm_of_play? {run : RunId} (h : s.play? = some (run, s')) :
    ∃ runs, s.world.runs.begin? = some (run, runs)
      ∧ (entering s.world run ++ s.performers).Perm s'.performers := by
  obtain ⟨runs, hb, hps⟩ := performers_of_play? h
  exact ⟨runs, hb, hps ▸ (foldl_join_perm (entering s.world run) s.performers).symm⟩

theorem follows_play? {run : RunId} (h : m.Agrees now s) (hp : s.play? = some (run, s')) :
    Follows settings now m
      (s.scene.log settings now (.begin run :: finishDeeds run s'.performers)) s' := by
  obtain ⟨runs, hb, hperm⟩ := perm_of_play? hp
  have hscene := play?_scene settings now hp
  have hold : ∀ p ∈ s.performers, p.run ≠ run := by
    rintro p hmem rfl
    have hlt := h.serves.2 p.run (h.serves.1 p hmem)
    exact absurd (RunBook.begun_of_begin? hb) (Nat.ne_of_lt hlt)
  have hcues : Cues (m.todoAfter (.begin run)) s'.performers := by
    rw [Moment.todoAfter, h.world]
    exact (h.cues.begin s.world hold).perm hperm
  refine follows_of_brings ?_ hcues ?_
  · rw [world, hscene]
    refine Moment.brings_log_cons h.world h.clock ?_ fun n hc hw hr ht => ?_
    · rw [Moment.Allows, h.world]
      exact ⟨RunBook.live_of_begin? hb, RunBook.begun_of_begin? hb⟩
    · have hr : n.ringing = [] := hr.trans h.ringing
      rw [← hr, ← ht]
      refine brings_finishDeeds ?_ hw hc (ht ▸ hcues)
      rw [Scene.perform_begin settings now hb]
      exact RunBook.lt_begun_of_begin? hb
  · rw [world, hscene]
    refine serves_finishDeeds run ?_
    rw [Scene.perform_begin settings now hb]
    exact (h.serves.begin hb fun p => run_of_mem_entering).of_runs fun q hq =>
      ⟨q, hperm.mem_iff.2 hq, rfl⟩

theorem follows_alarmTurn (h : m.Agrees now s) :
    Follows settings now m (s.scene.log settings now (s.alarmDeeds now))
      (s.alarmTurn settings now) := by
  have hb : m.Brings settings now (s.scene.log settings now (s.alarmDeeds now))
      (s.scene.performAll settings now (s.alarmDeeds now)).world [] m.todo := by
    refine Moment.brings_log_cons h.world h.clock h.ringing fun n hc hw hr ht => ?_
    rw [Moment.ringingAfter, h.world] at hr
    have ht : n.todo = m.todo := ht
    rw [← ht]
    exact brings_rings _ hw hc hr
  rw [← alarmTurn_scene] at hb
  refine follows_of_brings hb h.cues (h.serves.keeps ?_)
  have hk := Scene.keeps_performAll settings now (s.alarmDeeds now) ?_ s.scene
  · rwa [← alarmTurn_scene] at hk
  · intro d hd b
    rcases List.mem_cons.1 hd with rfl | hd
    · exact .refl b
    · obtain ⟨a, -, rfl⟩ := List.mem_map.1 hd
      exact .refl b

theorem follows_performerTurn {before after : List Performer} {p : Performer}
    (h : m.Agrees now s) (hp : s.performers = before.reverse ++ p :: after) :
    Follows settings now m
      (s.scene.log settings now (performerDeeds settings now p (before.reverse ++ after) s.scene))
      (performerTurn settings now before p after s.scene) := by
  have hperm : s.performers.Perm (p :: (before.reverse ++ after)) := hp ▸ List.perm_middle
  have hcues := h.cues.perm hperm
  have hmem : p ∈ s.performers := hperm.mem_iff.2 List.mem_cons_self
  have hb := p.brings_turn settings h.world h.clock (h.serves.1 p hmem)
    (h.cues.todo_of_mem p hmem)
  have hc := hcues.update (p.turn settings now s.scene).2 fun q hq => Performer.role_of_turn hq
  have hs := h.serves.keeps (Performer.keeps_turn settings now p s.scene)
  rw [h.ringing] at hb
  unfold performerTurn performerDeeds
  rcases ht : p.turn settings now s.scene with ⟨scene, _ | q⟩
  · rw [ht] at hb hc hs
    simp only [Option.isNone_none, if_true, Scene.log_append, ← p.turn_scene, ht,
      finishIfDone_eq settings now]
    refine follows_of_brings (hb.append fun n hc' hw hr hn => ?_) hc ?_
    · rw [← hr, ← hn]
      refine brings_finishDeeds ?_ hw hc' (hn ▸ hc)
      exact hs.2 p.run (hs.1 p hmem)
    · refine serves_finishDeeds p.run (hs.of_runs fun q hq => ⟨q, hperm.mem_iff.2 ?_, rfl⟩)
      exact List.mem_cons_of_mem p hq
  · rw [ht] at hb hc hs
    simp only [Option.isNone_some, Bool.false_eq_true, if_false, List.append_nil]
    have hq : q.run = p.run := congrArg Role.run (Performer.role_of_turn (by rw [ht]))
    have hperm' : (q :: (before.reverse ++ after)).Perm (before.reverse ++ q :: after) :=
      List.perm_middle.symm
    refine follows_of_brings hb (hc.perm hperm') (hs.of_runs fun r hr => ?_)
    rcases List.mem_cons.1 (hperm'.mem_iff.2 hr) with rfl | hr
    · exact ⟨p, hmem, hq⟩
    · exact ⟨r, hperm.mem_iff.2 (List.mem_cons_of_mem p hr), rfl⟩

end Show

namespace Course

variable {settings : Settings} {x : Course} {m : Moment}

theorem follows_move (settings : Settings) (h : m.Agrees x.clock x.engine) (mv : Move) :
    Show.Follows settings x.clock m (x.engine.scene.log settings x.clock (x.deeds settings mv))
      (x.next settings mv) := by
  have hidle : Show.Follows settings x.clock m [] x.engine := ⟨trivial, h⟩
  cases mv with
  | call c => exact Show.follows_call h c
  | play =>
    simp only [deeds, next]
    split
    · rename_i run s' hp
      exact Show.follows_play? h hp
    · exact hidle
  | alarms => exact Show.follows_alarmTurn h
  | performer place =>
    simp only [deeds, next]
    split
    · rename_i p hp
      exact Show.follows_performerTurn h (performers_around hp)
    · exact hidle
  | pass duration => exact hidle

theorem agrees_start (listening : Listening) (reactions : List Reaction) :
    Moment.start.Agrees 0 (start listening reactions).engine where
  clock := Nat.le_refl 0
  world := rfl
  ringing := rfl
  cues := ⟨.nil, nofun, nofun⟩
  serves := by
    refine ⟨nofun, ?_⟩
    rintro run (hr | hr) <;> cases hr

theorem follows_next (h : Show.Follows settings x.clock .start x.chronicle x.engine) (mv : Move) :
    Show.Follows settings (x.move settings mv).clock .start (x.move settings mv).chronicle
      (x.move settings mv).engine := by
  have hm := follows_move settings h.2 mv
  have ha := hm.2
  rw [← Moment.after_append] at ha
  exact ⟨(Moment.lawful_append settings _ _ _).2 ⟨h.1, hm.1⟩,
    { ha with clock := Nat.le_trans ha.clock (clock_le_move settings x mv) }⟩

/-- What holds of no entries, and is kept by what moves add from the state that the chronicle comes
to, holds of the chronicle of any moves; and that is lawful and comes to the state of the engine. -/
theorem chronicle_induction {P : List Entry → Prop} (hstart : P [])
    (hmove : ∀ (y : Course) (m : Move),
      (Moment.start.after settings y.chronicle).Agrees y.clock y.engine → P y.chronicle →
      P (y.chronicle ++ y.engine.scene.log settings y.clock (y.deeds settings m)))
    (listening : Listening) (reactions : List Reaction) (ms : List Move) :
    P ((start listening reactions).run settings ms).chronicle
      ∧ Show.Follows settings ((start listening reactions).run settings ms).clock .start
        ((start listening reactions).run settings ms).chronicle
        ((start listening reactions).run settings ms).engine := by
  refine run_induction settings (start listening reactions)
    (P := fun y => P y.chronicle ∧ Show.Follows settings y.clock .start y.chronicle y.engine)
    ⟨hstart, trivial, agrees_start listening reactions⟩ (fun y mv h => ?_) ms
  exact ⟨hmove y mv h.2.2 h.1, follows_next h.2 mv⟩

/-- The chronicle of any moves is lawful, and comes to the state of the engine. -/
theorem follows_run (settings : Settings) (listening : Listening) (reactions : List Reaction)
    (ms : List Move) :
    Show.Follows settings ((start listening reactions).run settings ms).clock .start
      ((start listening reactions).run settings ms).chronicle
      ((start listening reactions).run settings ms).engine :=
  (chronicle_induction (P := fun _ => True) trivial (fun _ _ _ _ => trivial) listening reactions
    ms).2

theorem lawful_run (settings : Settings) (listening : Listening) (reactions : List Reaction)
    (ms : List Move) :
    Moment.start.Lawful settings ((start listening reactions).run settings ms).chronicle :=
  (follows_run settings listening reactions ms).1

theorem agrees_run (settings : Settings) (listening : Listening) (reactions : List Reaction)
    (ms : List Move) :
    (Moment.start.after settings ((start listening reactions).run settings ms).chronicle).Agrees
      ((start listening reactions).run settings ms).clock
      ((start listening reactions).run settings ms).engine :=
  (follows_run settings listening reactions ms).2

end Course

end SpriteCanvas
