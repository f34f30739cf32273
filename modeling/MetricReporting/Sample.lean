import MetricReporting.Scalar

namespace MetricReporting

structure Sample where
  values : List Int64
deriving DecidableEq, Inhabited

namespace Sample

def ofList (values : List Int64) : Sample := ⟨values.mergeSort (fun a b => decide (a ≤ b))⟩

def size (s : Sample) : Nat := s.values.length

def min (s : Sample) : Int64 := s.values.headD 0

def max (s : Sample) : Int64 := s.values.getLastD 0

variable {α : Type} [Scalar α]

def clampToUnit (q : α) : α :=
  if Scalar.lt q (Scalar.ofNat 0) then Scalar.ofNat 0
  else if Scalar.lt (Scalar.ofNat 1) q then Scalar.ofNat 1
  else q

def nth (s : Sample) (index : Nat) : α := Scalar.ofInt (s.values.getD (index - 1) s.max).toInt

/--
The value at quantile `q`, which is taken at position `q * (n + 1)` among `n` values counted from one. Between
two positions the value is interpolated; before the first and from the last on it is that value.
-/
def quantile (s : Sample) (q : α) : α :=
  if s.size = 0 then Scalar.ofNat 0
  else
    let position := clampToUnit q * Scalar.ofNat (s.size + 1)
    let index := Scalar.truncate position
    if index < 1 then s.nth 1
    else if s.size ≤ index then s.nth s.size
    else
      s.nth index + (position - Scalar.ofNat index) * (s.nth (index + 1) - s.nth index)

def floats (s : Sample) : List Float := s.values.map (fun v => Scalar.ofInt v.toInt)

def sum (xs : List Float) : Float := xs.foldl (· + ·) 0

def mean (s : Sample) : Float :=
  if s.size = 0 then 0 else sum s.floats / floatOfNat s.size

def standardDeviation (s : Sample) : Float :=
  if s.size ≤ 1 then 0
  else
    let m := s.mean
    let squares := s.floats.map (fun x => (x - m) * (x - m))
    (sum squares / floatOfNat (s.size - 1)).sqrt

def percentiles {β : Type} [OfScientific β] : List (String × β) :=
  [("p50", 0.5), ("p75", 0.75), ("p95", 0.95), ("p98", 0.98), ("p99", 0.99), ("p999", 0.999)]

end Sample

end MetricReporting
