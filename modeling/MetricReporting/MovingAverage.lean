import MetricReporting.Scalar
import MetricReporting.Word

namespace MetricReporting

def tickNanos : Nat := 5000000000

/-- `rate` is in events per nanosecond, and there is none before the first tick. -/
structure MovingAverage (α : Type) where
  smoothing : α
  sinceTick : Int64 := 0
  rate : Option α := none

namespace MovingAverage

variable {α : Type} [Scalar α]

def HasRoom (a : MovingAverage α) (n : Int64) : Prop := Word.Holds (a.sinceTick.toInt + n.toInt)

instance (a : MovingAverage α) (n : Int64) : Decidable (a.HasRoom n) := inferInstanceAs (Decidable (Word.Holds _))

def count (a : MovingAverage α) (n : Int64) : MovingAverage α := { a with sinceTick := a.sinceTick + n }

def intervalRate (n : Int64) : α := Scalar.ofInt n.toInt / Scalar.ofNat tickNanos

def tick (a : MovingAverage α) : MovingAverage α :=
  let current := intervalRate a.sinceTick
  { a with
    sinceTick := 0
    rate := some (match a.rate with
      | none => current
      | some r => r + a.smoothing * (current - r)) }

@[specialize] def fade (smoothing idle : α) : Nat → α → α
  | 0, rate => rate
  | n + 1, rate => fade smoothing idle n (rate + smoothing * (idle - rate))

@[specialize] def ticks : Nat → MovingAverage α → MovingAverage α
  | 0, a => a
  | n + 1, a => { a.tick with rate := a.tick.rate.map (fade a.smoothing (intervalRate 0) n) }

theorem ticks_zero (a : MovingAverage α) : a.ticks 0 = a := rfl

theorem ticks_succ (n : Nat) (a : MovingAverage α) : a.ticks (n + 1) = a.tick.ticks n := by
  cases n <;> rfl

def perSecond (a : MovingAverage α) : α :=
  a.rate.getD (Scalar.ofNat 0) * Scalar.ofNat 1000000000

end MovingAverage

end MetricReporting
