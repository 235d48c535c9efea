import IntentContract.Time.Timestamp

/-!
# Clocks

What a program can tell of a clock is what it shows each time it is read: the time, and a count of
milliseconds. On a machine the time comes as a number of nanoseconds since the beginning of 1970.
-/

namespace IntentContract

/-- **A clock**: what it shows, one reading after the other. -/
structure Clock where
  /-- The time at each reading. -/
  instant : Nat → Instant
  /-- The milliseconds counted up to each reading. -/
  milliseconds : Nat → Nat

namespace Clock

/-- A clock that has been read `n` times. -/
def after (c : Clock) (n : Nat) : Clock where
  instant k := c.instant (n + k)
  milliseconds k := c.milliseconds (n + k)

/-- A clock that stands still. -/
def still (i : Instant) : Clock where
  instant _ := i
  milliseconds _ := 0

/-- A clock that stands still at the beginning of 1970. -/
def epoch : Clock :=
  still .epoch

end Clock

/-- The instant some nanoseconds after the beginning of 1970. -/
def Instant.ofNanoseconds (count : Nat) : Instant :=
  let seconds := count / 1000000000
  let date := Nat.repeat Date.next (seconds / 86400) epoch.date
  ⟨date, ⟨seconds % 86400 / 3600, seconds % 3600 / 60, seconds % 60⟩, count % 1000000000⟩

end IntentContract
