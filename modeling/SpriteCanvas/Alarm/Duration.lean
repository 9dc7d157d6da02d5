import SpriteCanvas.Binary64

/-!
# Durations and deadlines

Time is counted in nanoseconds.
-/

namespace SpriteCanvas.Duration

/-- Nanoseconds in a second. -/
def second : Nat := Nat.pow 10 9

/-- Nanoseconds in a millisecond. -/
def millisecond : Nat := Nat.pow 10 6

/-- The longest duration: one nanosecond less than `2 ^ 64` seconds. -/
def longest : Nat := Nat.pow 2 64 * second - 1

/-- How long a message of so many seconds is shown: to the nearest nanosecond, an exact half to
the even one, and at most `longest`; not at all unless the seconds are positive and finite. -/
def ofSeconds (secs : Float) : Nat := min (Binary64.mulRoundNat secs second) longest

/-- The clock of the platform reads less than `2 ^ 63` seconds. -/
def clockRange : Nat := Nat.pow 2 63 * second

/-- Thirty years of 365 days. -/
def thirtyYears : Nat := 30 * 365 * 24 * 60 * 60 * second

/-- When a duration that starts at `now` is over, where the clock read `clockStart` at time zero.
One that runs past the end of the clock counts as thirty years, which the clock has room for until
its own last thirty years. -/
def deadline (clockStart now duration : Nat) : Nat :=
  now + if clockStart + now + duration < clockRange then duration else thirtyYears

end SpriteCanvas.Duration
