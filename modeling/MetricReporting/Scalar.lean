/-!
The arithmetic that rates and quantiles are computed in. Running code uses machine floats; what is said of the
exact values is said over any other instance.
-/
namespace MetricReporting

class Scalar (α : Type) extends Add α, Sub α, Mul α, Div α where
  ofNat : Nat → α
  ofInt : Int → α
  truncate : α → Nat
  lt : α → α → Bool

def floatOfNat (n : Nat) : Float := if n < Nat.pow 2 64 then n.toUInt64.toFloat else Float.ofNat n

instance : Scalar Float where
  ofNat := floatOfNat
  ofInt n := if 0 ≤ n then floatOfNat n.toNat else -(floatOfNat n.natAbs)
  truncate x := x.toUInt64.toNat
  lt x y := x < y

end MetricReporting
