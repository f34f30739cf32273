namespace MetricReporting

structure Instant where
  seconds : Int
  nanos : Nat
deriving DecidableEq, Repr, Inhabited

namespace Instant

def millis (t : Instant) : Int := t.seconds * 1000 + t.nanos / 1000000

def ofEpochNanos (n : Nat) : Instant := ⟨n / 1000000000, n % 1000000000⟩

end Instant

end MetricReporting
