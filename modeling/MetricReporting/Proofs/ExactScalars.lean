import Mathlib.Algebra.Field.Defs
import Mathlib.Algebra.Order.Floor.Defs
import MetricReporting.Scalar

namespace MetricReporting

instance Scalar.exact {K : Type} [Field K] [LinearOrder K] [FloorSemiring K] : Scalar K where
  ofNat n := n
  ofInt n := n
  truncate x := ⌊x⌋₊
  lt x y := decide (x < y)

end MetricReporting
