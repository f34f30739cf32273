import MetricReporting.Span

namespace MetricReporting

structure Clock where
  nanos : UInt64 := 0
deriving DecidableEq, Repr, Inhabited

namespace Clock

def now (c : Clock) : Nat := c.nanos.toNat

/-- Moves the clock on. It starts again from zero after the greatest word, and a span beyond that word counts as
the word. -/
def advance (c : Clock) (span : Span) : Clock := ⟨c.nanos + (min span.nanos (Nat.pow 2 64 - 1)).toUInt64⟩

end Clock

end MetricReporting
