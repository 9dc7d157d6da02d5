import SpriteCanvas.Setup
import SpriteCanvas.Playback.Session
import SpriteCanvas.Script.Authoring
import SpriteCanvas.Proofs.RunLaw
import SpriteCanvas.Proofs.Unrolling
import SpriteCanvas.Proofs.Hearing
import SpriteCanvas.Proofs.Speech
import SpriteCanvas.Proofs.Patience
import SpriteCanvas.Proofs.Lifetimes
import SpriteCanvas.Proofs.Undelivered
import SpriteCanvas.Proofs.Endings
import SpriteCanvas.Proofs.Silence
import SpriteCanvas.Proofs.Noninterference
import SpriteCanvas.Proofs.Numbering
import SpriteCanvas.Proofs.Placement
import SpriteCanvas.Proofs.Skipping
import SpriteCanvas.Proofs.Reload
import SpriteCanvas.Proofs.Rebuilding
import SpriteCanvas.Proofs.Marking
import SpriteCanvas.Proofs.Precedence
import SpriteCanvas.Proofs.Agenda
import SpriteCanvas.Proofs.Punctuality
import SpriteCanvas.Proofs.RunLength
import SpriteCanvas.Proofs.Strikes
import SpriteCanvas.Proofs.Symmetry
import SpriteCanvas.Proofs.Contacts
import SpriteCanvas.Proofs.Scanning
import SpriteCanvas.Proofs.Draining
import SpriteCanvas.Proofs.Glow
import SpriteCanvas.Proofs.Pacing
import SpriteCanvas.Proofs.Deferral
import SpriteCanvas.Proofs.PlainAlarms
import SpriteCanvas.Proofs.Searches
import SpriteCanvas.Proofs.Deadlines
import SpriteCanvas.Proofs.SnapshotReading
import SpriteCanvas.Proofs.Stale
import SpriteCanvas.Proofs.Turning
import SpriteCanvas.Proofs.NumericParameters
import SpriteCanvas.Proofs.LoopCounts
import SpriteCanvas.Proofs.Termination
