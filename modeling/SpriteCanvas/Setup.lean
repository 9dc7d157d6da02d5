import SpriteCanvas.Json.Fault

/-!
# Setup faults

Nothing that happens inside a script is a fault.  Only setting up can fail: a text is not a
script, or a worker cannot be started or does not come back.
-/

namespace SpriteCanvas

/-- The message of a text that is not a script. -/
def Fault.scriptMessage (f : Fault) : String := "invalid script json: " ++ f.message

/-- Why an engine or a run could not be set up. -/
inductive SetupFault where
  /-- The worker for a role could not be started. -/
  | notStarted (role reason : String)
  /-- The worker for a role died. -/
  | died (role : String)
  /-- A script could not be read. -/
  | script (fault : Fault)

/-- The message of a setup fault. -/
def SetupFault.message : SetupFault → String
  | notStarted role reason => s!"failed to spawn {role} thread: {reason}"
  | died role => s!"{role} thread panicked"
  | script fault => fault.scriptMessage

end SpriteCanvas
