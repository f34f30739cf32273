import MetricReporting.MovingAverage
/-!
Meters: a count of events and moving averages of their rate. No clock wakes a meter up; whenever it is marked or
an average is read, it first makes up for the ticks since it was last looked at.
-/
namespace MetricReporting

inductive Horizon
  | m1
  | m5
  | m15
deriving DecidableEq, Repr

def smoothingOver {α : Type} [Scalar α] (exp : α → α) (minutes : Nat) : α :=
  let seconds : α := Scalar.ofNat tickNanos / Scalar.ofNat 1000000000
  Scalar.ofNat 1 - exp ((Scalar.ofNat 0 - seconds) / Scalar.ofNat 60 / Scalar.ofNat minutes)

structure Meter (α : Type) where
  start : Nat
  tickedAt : Nat
  count : Int64 := 0
  m1 : MovingAverage α
  m5 : MovingAverage α
  m15 : MovingAverage α
  /-- Set for good by a mark that panicked with the meter in its hold. -/
  poisoned : Bool := false

namespace Meter

def startedWith {α : Type} [Scalar α] (exp : α → α) (now : Nat) : Meter α :=
  { start := now, tickedAt := now, m1 := ⟨smoothingOver exp 1, 0, none⟩, m5 := ⟨smoothingOver exp 5, 0, none⟩,
    m15 := ⟨smoothingOver exp 15, 0, none⟩ }

def startedAt (now : Nat) : Meter Float := startedWith Float.exp now

instance : Inhabited (Meter Float) := ⟨startedAt 0⟩

variable {α : Type} [Scalar α]

/-- Ticks once for every whole interval since the last tick. Nothing happens up to the end of the first. -/
@[specialize] def tickUpTo (m : Meter α) (now : Nat) : Meter α :=
  let age := now - m.tickedAt
  if age ≤ tickNanos then m
  else
    { m with
      tickedAt := now - age % tickNanos
      m1 := m.m1.ticks (age / tickNanos)
      m5 := m.m5.ticks (age / tickNanos)
      m15 := m.m15.ticks (age / tickNanos) }

def HasRoom (m : Meter α) (n : Int64) : Prop :=
  Word.Holds (m.count.toInt + n.toInt) ∧ m.m1.HasRoom n ∧ m.m5.HasRoom n ∧ m.m15.HasRoom n

instance (m : Meter α) (n : Int64) : Decidable (m.HasRoom n) := inferInstanceAs (Decidable (_ ∧ _))

@[specialize] def mark (m : Meter α) (now : Nat) (n : Int64) : Meter α :=
  let m := m.tickUpTo now
  { m with
    count := m.count + n
    m1 := m.m1.count n
    m5 := m.m5.count n
    m15 := m.m15.count n
    poisoned := m.poisoned || !decide (m.HasRoom n) }

def average (m : Meter α) : Horizon → MovingAverage α
  | .m1 => m.m1
  | .m5 => m.m5
  | .m15 => m.m15

@[specialize] def readRate (m : Meter α) (now : Nat) (h : Horizon) : α × Meter α :=
  let m := m.tickUpTo now
  ((m.average h).perSecond, m)

def meanRate (m : Meter α) (now : Nat) : α :=
  if m.count = 0 ∨ now ≤ m.start then Scalar.ofNat 0
  else Scalar.ofInt m.count.toInt / Scalar.ofNat (now - m.start) * Scalar.ofNat 1000000000

end Meter

end MetricReporting
