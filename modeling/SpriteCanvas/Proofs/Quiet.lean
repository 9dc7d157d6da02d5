import SpriteCanvas.Proofs.Course

/-!
# Quiet hosts

A host with no reaction left to wait hears everything and calls nothing.  It never gets another
reaction, so what happens in its engine is known from the deeds and the world alone
(`Scene.runLog_quiet`, `Scene.perform_quiet`).
-/

namespace SpriteCanvas

variable (settings : Settings) (now : Nat)

theorem Audience.hear_quiet {a : Audience} (h : a.waiting = []) (n : Notice) :
    (a.hear now n).1 = [] ∧ (a.hear now n).2.waiting = [] := by
  have hl := a.length_hear now n
  rw [h, List.length_nil, Nat.add_eq_zero_iff] at hl
  exact ⟨List.length_eq_zero_iff.1 hl.1, List.length_eq_zero_iff.1 hl.2⟩

namespace Scene

theorem run_quiet : ∀ (ns : List Notice) {s : Scene}, s.audience.waiting = [] →
    (s.run settings now (ns.map .tell)).world = s.world
      ∧ (s.run settings now (ns.map .tell)).audience.waiting = []
  | [], s, h => by
    rw [List.map_nil, run]
    exact ⟨rfl, h⟩
  | n :: ns, s, h => by
    obtain ⟨hc, hw⟩ := Audience.hear_quiet now h n
    rw [List.map_cons, run, hc, List.map_nil, List.nil_append]
    exact run_quiet ns hw

theorem runLog_quiet : ∀ (ns : List Notice) {s : Scene}, s.audience.waiting = [] →
    s.runLog settings now (ns.map .tell) = ns.map fun n => ⟨now, .tell n⟩
  | [], s, _ => by rw [List.map_nil, runLog, List.map_nil]
  | n :: ns, s, h => by
    obtain ⟨hc, hw⟩ := Audience.hear_quiet now h n
    rw [List.map_cons, runLog, hc, List.map_nil, List.nil_append, List.map_cons]
    exact congrArg _ (runLog_quiet ns hw)

theorem perform_quiet {s : Scene} (h : s.audience.waiting = []) (d : Deed) :
    (s.perform settings now d).world = (s.world.perform settings now d).1
      ∧ (s.perform settings now d).audience.waiting = [] :=
  run_quiet settings now _ h

theorem performAll_quiet : ∀ (ds : List Deed) {s : Scene}, s.audience.waiting = [] →
    (s.performAll settings now ds).world
      = ds.foldl (fun w d => (w.perform settings now d).1) s.world
  | [], _, _ => rfl
  | d :: ds, s, h => by
    obtain ⟨hw, ha⟩ := perform_quiet settings now h d
    rw [performAll_cons, performAll_quiet ds ha, hw]
    rfl

theorem waiting_performAll : ∀ (ds : List Deed) {s : Scene}, s.audience.waiting = [] →
    (s.performAll settings now ds).audience.waiting = []
  | [], _, h => h
  | d :: ds, _, h => waiting_performAll ds (perform_quiet settings now h d).2

theorem log_singleton_quiet {s : Scene} (h : s.audience.waiting = []) (d : Deed) :
    s.log settings now [d]
      = ⟨now, d⟩ :: (s.world.perform settings now d).2.map fun n => ⟨now, .tell n⟩ := by
  rw [log, log, List.append_nil]
  exact congrArg _ (runLog_quiet settings now _ h)

/-- What is written down while deeds are done happens at that time, and a quiet host adds nothing to
the deeds but what it is told. -/
theorem of_mem_log_quiet {e : Entry} : ∀ {ds : List Deed} {s : Scene}, s.audience.waiting = [] →
    e ∈ s.log settings now ds → e.time = now ∧ (e.deed ∈ ds ∨ ∃ n, e.deed = .tell n)
  | d :: ds, s, h, he => by
    have hrun := runLog_quiet settings now (s.world.perform settings now d).2
      (s := { s with world := (s.world.perform settings now d).1 }) h
    rw [log, hrun, List.cons_append] at he
    rcases List.mem_cons.1 he with rfl | he
    · exact ⟨rfl, .inl List.mem_cons_self⟩
    · rcases List.mem_append.1 he with he | he
      · obtain ⟨n, -, rfl⟩ := List.mem_map.1 he
        exact ⟨rfl, .inr ⟨n, rfl⟩⟩
      · have hq := (perform_quiet settings now h d).2
        exact (of_mem_log_quiet hq he).imp_right (Or.imp_left (List.mem_cons_of_mem d))

end Scene

namespace Course

/-- Calls to a quiet host are answered one after the other, and nothing else changes the world. -/
theorem calls_quiet : ∀ (cs : List Call) {x : Course}, x.engine.scene.audience.waiting = [] →
    (x.run settings (cs.map .call)).engine.world
        = cs.foldl (fun w c => (w.reply settings x.clock c).world) x.engine.world
      ∧ (x.run settings (cs.map .call)).engine.scene.audience.waiting = []
  | [], _, h => ⟨rfl, h⟩
  | c :: cs, x, h => by
    obtain ⟨hworld, hwaiting⟩ := Scene.perform_quiet settings x.clock h (.answer c)
    obtain ⟨hrest, hquiet⟩ := calls_quiet cs (x := x.move settings (.call c)) hwaiting
    refine ⟨hrest.trans ?_, hquiet⟩
    exact congrArg (cs.foldl fun w c => (w.reply settings x.clock c).world) hworld

theorem quiet_run {x : Course} (h : x.engine.scene.audience.waiting = []) (ms : List Move) :
    (x.run settings ms).engine.scene.audience.waiting = [] := by
  refine run_induction settings x (P := fun y => y.engine.scene.audience.waiting = []) h
    (fun y m hy => ?_) ms
  rw [move_scene]
  exact Scene.waiting_performAll settings y.clock _ hy

/-- What happens when a quiet host is asked something. -/
theorem chronicle_call_quiet {x : Course} (h : x.engine.scene.audience.waiting = []) (c : Call) :
    ∃ ns : List Notice, (x.move settings (.call c)).chronicle
      = x.chronicle ++ ⟨x.clock, .answer c⟩ :: ns.map fun n => ⟨x.clock, .tell n⟩ :=
  ⟨_, congrArg (x.chronicle ++ ·) (Scene.log_singleton_quiet settings x.clock h (.answer c))⟩

/-- An engine whose host never calls back answers nothing but what is called. -/
theorem answers_quiet (ms : List Move) {x : Course} (h : x.engine.scene.audience.waiting = []) :
    ∃ log, (x.run settings ms).chronicle = x.chronicle ++ log
      ∧ ∀ e ∈ log, ∀ c, e.deed = .answer c → .call c ∈ ms := by
  induction ms generalizing x with
  | nil => exact ⟨[], (List.append_nil _).symm, by simp⟩
  | cons m ms ih =>
    obtain ⟨log, hlog, hanswers⟩ := ih (quiet_run settings h [m])
    refine ⟨_, hlog.trans (List.append_assoc _ _ _), fun e he c hc => ?_⟩
    rcases List.mem_append.1 he with he | he
    · obtain ⟨-, hd | ⟨n, hn⟩⟩ := Scene.of_mem_log_quiet settings x.clock h he
      · rw [hc] at hd
        rw [eq_call_of_mem_deeds hd]
        exact List.mem_cons_self
      · cases hc.symm.trans hn
    · exact List.mem_cons_of_mem m (hanswers e he c hc)

/-- The turn of a performer who is alone and has one block left, which is no loop. -/
theorem world_performer_quiet {x : Course} {p : Performer} {b : Block}
    (h : x.engine.scene.audience.waiting = []) (hps : x.engine.performers = [p])
    (hp : p.phase = .opening [b]) (hb : ∀ times, b.command ≠ .loop times)
    (hgo : p.mayGoOn x.engine.world) :
    ∃ runs, (x.move settings (.performer 0)).engine.world
      = { (x.engine.world.perform settings x.clock (.execute p.role b)).1 with runs := runs } := by
  have hr : x.runnable? 0 = some p := by
    simp [runnable?, hps, Performer.isRunnable, hp]
  have hturn : p.turnDeeds settings x.clock x.engine.scene
      = [.execute p.role b, .leave p.role] := by
    rw [Performer.turnDeeds_opening_cons settings x.clock hp hb hgo,
      Performer.turnDeeds_opening_nil settings x.clock _ rfl, Performer.role_enter]
  have hworld := congrArg Scene.world (move_scene settings x (.performer 0))
  rw [Scene.performAll_quiet settings x.clock _ h] at hworld
  simp only [deeds, hr, Show.performerDeeds, hturn, around, hps, List.foldl_append] at hworld
  rw [show (x.move settings (.performer 0)).engine.world = _ from hworld]
  split
  · exact ⟨_, rfl⟩
  · exact ⟨_, rfl⟩

end Course

end SpriteCanvas
