namespace MetricReporting

structure Counter where
  count : Int64 := 0
deriving DecidableEq, Repr, Inhabited

namespace Counter

def add (c : Counter) (n : Int64) : Counter := ⟨c.count + n⟩

def subtract (c : Counter) (n : Int64) : Counter := ⟨c.count - n⟩

end Counter

end MetricReporting
