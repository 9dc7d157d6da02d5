import SpriteCanvas.Audience.Basic

/-!
# Delivery

A scene is the world with its host.  A call changes the world first and then tells the host, one
notice after the other.  A call that the host makes in reaction is answered, with all its own
notices, before the next notice is delivered.
-/

namespace SpriteCanvas

/-- The world and the host. -/
structure Scene where
  world : World
  audience : Audience

/-- What is still to be done in a delivery. -/
inductive Errand where
  | tell (n : Notice)
  | call (c : Call)
  /-- The host records the answer to a call of its own. -/
  | report (a : Answer)

namespace Errand

/-- Whether an errand is a call. -/
def isCall : Errand → Bool
  | call _ => true
  | tell _ | report _ => false

@[simp] theorem isCall_tell (n : Notice) : (tell n).isCall = false := rfl

@[simp] theorem isCall_call (c : Call) : (call c).isCall = true := rfl

@[simp] theorem isCall_report (a : Answer) : (report a).isCall = false := rfl

theorem countP_isCall_map_tell (ns : List Notice) : (ns.map tell).countP (·.isCall) = 0 := by
  simp [List.countP_eq_zero]

end Errand

namespace Scene

variable (settings : Settings) (now : Nat)

/-- What is left to do in a delivery: the reactions that may still come, then the calls, then all
errands. -/
def work (errands : List Errand) (s : Scene) : Nat × Nat × Nat :=
  (s.audience.waiting.length, errands.countP (·.isCall), errands.length)

theorem work_tell_lt (n : Notice) (errands : List Errand) (s : Scene) :
    Prod.Lex (· < ·) (Prod.Lex (· < ·) (· < ·))
      (work ((s.audience.hear now n).1.map .call ++ errands)
        { s with audience := (s.audience.hear now n).2 })
      (work (.tell n :: errands) s) := by
  have h := s.audience.length_hear now n
  rcases hc : (s.audience.hear now n).1 with _ | ⟨c, cs⟩
  · simp only [hc, List.length_nil, Nat.zero_add] at h
    simp only [work, h]
    refine .right _ ?_
    simp [Prod.lex_def]
  · simp only [hc, List.length_cons] at h
    refine .left _ _ ?_
    show (s.audience.hear now n).2.waiting.length < s.audience.waiting.length
    omega

theorem work_call_lt (c : Call) (ns : List Notice) (a : Answer) (errands : List Errand)
    (s : Scene) (w : World) :
    Prod.Lex (· < ·) (Prod.Lex (· < ·) (· < ·))
      (work (ns.map .tell ++ .report a :: errands) { s with world := w })
      (work (.call c :: errands) s) := by
  refine .right _ (.left _ _ ?_)
  simp only [List.countP_append, Errand.countP_isCall_map_tell, List.countP_cons,
    Errand.isCall_call, Errand.isCall_report]
  simp

theorem work_report_lt (a : Answer) (e : Event) (errands : List Errand) (s : Scene) :
    Prod.Lex (· < ·) (Prod.Lex (· < ·) (· < ·))
      (work errands { s with audience := s.audience.record e })
      (work (.report a :: errands) s) := by
  refine .right _ ?_
  simp [Prod.lex_def]

/-- Runs errands in order.  What an errand brings about comes before the errands after it. -/
def run : List Errand → Scene → Scene
  | [], s => s
  | .tell n :: errands, s =>
    run ((s.audience.hear now n).1.map .call ++ errands)
      { s with audience := (s.audience.hear now n).2 }
  | .call c :: errands, s =>
    let reply := s.world.reply settings now c
    run (reply.notices.map .tell ++ .report reply.answer :: errands)
      { s with world := reply.world }
  | .report a :: errands, s =>
    run errands { s with audience := s.audience.record (.reaction a) }
termination_by errands s => work errands s
decreasing_by
  · exact work_tell_lt now n errands s
  · exact work_call_lt c reply.notices reply.answer errands s reply.world
  · exact work_report_lt a (.reaction a) errands s

/-- Tells the host. -/
def deliver (notices : List Notice) (s : Scene) : Scene := s.run settings now (notices.map .tell)

/-- Makes a call from outside and gives its answer. -/
def call (c : Call) (s : Scene) : Answer × Scene :=
  let reply := s.world.reply settings now c
  (reply.answer, deliver settings now reply.notices { s with world := reply.world })

end Scene

end SpriteCanvas
