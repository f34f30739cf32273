namespace MetricReporting

inductive Kind
  | gauge
  | counter
  | histogram
  | meter
  | timer
deriving DecidableEq, Repr, Inhabited

namespace Kind

def all : List Kind := [gauge, counter, histogram, meter, timer]

theorem mem_all (k : Kind) : k ∈ all := by cases k <;> simp [all]

def name : Kind → String
  | gauge => "gauge"
  | counter => "counter"
  | histogram => "histogram"
  | meter => "meter"
  | timer => "timer"

end Kind

end MetricReporting
