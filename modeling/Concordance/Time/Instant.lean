import Concordance.Time.Calendar

namespace Concordance

structure Instant where
  seconds : Int
  nanos : Nat
  deriving DecidableEq, Repr

namespace Instant

def secondsPerDay : Int := 86400

def nanosPerSecond : Int := 1000000000

def secondOfDay (t : Instant) : Int := t.seconds % secondsPerDay

def isLeap (t : Instant) : Bool := 1000000000 ≤ t.nanos

/-- The leap second that lies between two times of day and that their seconds do not show. -/
def leapBetween (a b : Instant) : Int :=
  if b.secondOfDay < a.secondOfDay then (if b.isLeap then 1 else 0)
  else if a.secondOfDay < b.secondOfDay then (if a.isLeap then -1 else 0)
  else 0

def nanosSince (a b : Instant) : Int :=
  (a.seconds - b.seconds + leapBetween a b) * nanosPerSecond + ((a.nanos : Int) - b.nanos)

def millisSince (a b : Instant) : Int := (a.nanosSince b).tdiv 1000000

def inRange (t : Instant) : Bool :=
  (Date.mk Date.firstYear 1 1).dayNumber * secondsPerDay ≤ t.seconds &&
    t.seconds < ((Date.mk Date.lastYear 12 31).dayNumber + 1) * secondsPerDay

theorem nanosSince_of_not_leap {a b : Instant} (ha : a.isLeap = false) (hb : b.isLeap = false) :
    a.nanosSince b =
      (a.seconds * nanosPerSecond + a.nanos) - (b.seconds * nanosPerSecond + b.nanos) := by
  simp only [nanosSince, leapBetween, ha, hb, nanosPerSecond]
  split <;> simp <;> omega

end Instant

end Concordance
