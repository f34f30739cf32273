import MetricReporting.Histogram
import MetricReporting.Meter
import MetricReporting.Span

namespace MetricReporting

structure Timer (α : Type) where
  histogram : Histogram := .empty
  meter : Meter α

namespace Timer

def startedAt (now : Nat) : Timer Float := { meter := Meter.startedAt now }

instance : Inhabited (Timer Float) := ⟨startedAt 0⟩

variable {α : Type} [Scalar α]

def sampleOf (span : Span) : Int64 := Int64.ofNat (min span.nanos (Nat.pow 2 63 - 1))

def count (t : Timer α) : Int64 := t.histogram.count

end Timer

end MetricReporting
