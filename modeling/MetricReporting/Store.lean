import MetricReporting.Action
import MetricReporting.Clock
import MetricReporting.Counter
import MetricReporting.Point
import MetricReporting.Timer
/-!
The store of metric objects. A metric is known by its kind and its place in the store, which it keeps for good;
two names for it are names of one object.
-/
namespace MetricReporting

structure Handle (kind : Kind) where
  index : Nat
deriving DecidableEq, Repr, Inhabited

structure Metric where
  kind : Kind
  handle : Handle kind
deriving DecidableEq, Repr

inductive Answer
  | value (v : FieldValue)
  | panic (payload : Panic)
deriving Inhabited

structure Probe where
  answers : Nat → Answer
  asked : Nat := 0

instance : Inhabited Probe := ⟨⟨fun _ => default, 0⟩⟩

def Probe.constant (v : FieldValue) : Probe := ⟨fun _ => .value v, 0⟩

structure ProbeId where
  index : Nat
deriving DecidableEq, Repr, Inhabited

structure Gauge where
  probe : ProbeId
deriving DecidableEq, Repr, Inhabited

abbrev Kind.Object : Kind → Type
  | .gauge => Gauge
  | .counter => Counter
  | .histogram => Histogram
  | .meter => Meter Float
  | .timer => Timer Float

instance (kind : Kind) : Inhabited kind.Object :=
  match kind with
  | .gauge => inferInstanceAs (Inhabited Gauge)
  | .counter => inferInstanceAs (Inhabited Counter)
  | .histogram => inferInstanceAs (Inhabited Histogram)
  | .meter => inferInstanceAs (Inhabited (Meter Float))
  | .timer => inferInstanceAs (Inhabited (Timer Float))

structure Store where
  clock : Clock := {}
  probes : Array Probe := #[]
  gauges : Array Gauge := #[]
  counters : Array Counter := #[]
  histograms : Array Histogram := #[]
  meters : Array (Meter Float) := #[]
  timers : Array (Timer Float) := #[]
deriving Inhabited

namespace Store

def objects (s : Store) : (kind : Kind) → Array kind.Object
  | .gauge => s.gauges
  | .counter => s.counters
  | .histogram => s.histograms
  | .meter => s.meters
  | .timer => s.timers

def setObjects (s : Store) : (kind : Kind) → Array kind.Object → Store
  | .gauge, a => { s with gauges := a }
  | .counter, a => { s with counters := a }
  | .histogram, a => { s with histograms := a }
  | .meter, a => { s with meters := a }
  | .timer, a => { s with timers := a }

variable {kind : Kind}

def get (s : Store) (h : Handle kind) : kind.Object := (s.objects kind).getD h.index default

def set (s : Store) (h : Handle kind) (object : kind.Object) : Store :=
  s.setObjects kind ((s.objects kind).setIfInBounds h.index object)

def update (s : Store) (h : Handle kind) (f : kind.Object → kind.Object) : Store := s.set h (f (s.get h))

def add (s : Store) (object : kind.Object) : Handle kind × Store :=
  (⟨(s.objects kind).size⟩, s.setObjects kind ((s.objects kind).push object))

def probe (s : Store) (p : ProbeId) : Probe := s.probes.getD p.index default

def setProbe (s : Store) (p : ProbeId) (probe : Probe) : Store :=
  { s with probes := s.probes.setIfInBounds p.index probe }

def addProbe (s : Store) (probe : Probe) : ProbeId × Store :=
  (⟨s.probes.size⟩, { s with probes := s.probes.push probe })

def now (s : Store) : Nat := s.clock.now

@[simp] theorem objects_setObjects_self (s : Store) (kind : Kind) (a : Array kind.Object) :
    (s.setObjects kind a).objects kind = a := by cases kind <;> rfl

theorem objects_setObjects_of_ne (s : Store) {kind other : Kind} (a : Array kind.Object)
    (h : kind ≠ other) : (s.setObjects kind a).objects other = s.objects other := by
  cases kind <;> cases other <;> first | rfl | exact absurd rfl h

end Store

namespace Gauge

def describe : String := "Gauge \x7b .. \x7d"

def read (h : Handle .gauge) : Action Store FieldValue := do
  let s ← Action.get
  let id := (s.get h).probe
  let p := s.probe id
  Action.set (s.setProbe id { p with asked := p.asked + 1 })
  match p.answers p.asked with
  | .value v => return v
  | .panic payload => Action.panic payload

end Gauge

inductive Metered
  | meter (h : Handle .meter)
  | timer (h : Handle .timer)
deriving DecidableEq, Repr

namespace Metered

def get (s : Store) : Metered → Meter Float
  | meter h => s.get h
  | timer h => (s.get h).meter

def set (s : Store) (m : Meter Float) : Metered → Store
  | meter h => s.set h m
  | timer h => s.update h (fun t => { t with meter := m })

def poison : Panic := .text "meter mutex poisoned: PoisonError \x7b .. \x7d"

def hold (metered : Metered) : Action Store (Meter Float) := do
  let m := metered.get (← Action.get)
  if m.poisoned then Action.panic poison else return m

def mark (metered : Metered) (n : Int64) : Action Store Unit := do
  let s ← Action.get
  let m := metered.get s
  -- A poisoned meter shows nobody what it has counted, so it makes no difference that it counts this as well.
  Action.set (metered.set s (m.mark s.now n))
  if m.poisoned then Action.panic poison
  else if (m.mark s.now n).poisoned then Action.panic Word.addOverflow

def readRate (metered : Metered) (horizon : Horizon) : Action Store Float := do
  let (rate, m) := (← metered.hold).readRate (← Action.get).now horizon
  Action.modify fun s => metered.set s m
  return rate

def meanRate (metered : Metered) : Action Store Float := do
  return (← metered.hold).meanRate (← Action.get).now

end Metered

namespace Metric

def count? (s : Store) : Metric → Option Int64
  | ⟨.gauge, _⟩ => none
  | ⟨.counter, h⟩ => let c : Counter := s.get h; some c.count
  | ⟨.histogram, h⟩ => let o : Histogram := s.get h; some o.count
  | ⟨.meter, h⟩ => let m : Meter Float := s.get h; some m.count
  | ⟨.timer, h⟩ => let t : Timer Float := s.get h; some t.count

def readCount : Metric → Action Store (Option Int64)
  | ⟨.meter, h⟩ => do return some (← Metered.hold (.meter h)).count
  | metric => do return metric.count? (← Action.get)

def histogram? (s : Store) : Metric → Option Histogram
  | ⟨.histogram, h⟩ => some (s.get h)
  | ⟨.timer, h⟩ => let t : Timer Float := s.get h; some t.histogram
  | _ => none

def metered? : Metric → Option Metered
  | ⟨.meter, h⟩ => some (.meter h)
  | ⟨.timer, h⟩ => some (.timer h)
  | _ => none

end Metric

namespace Timer

def record (h : Handle .timer) (span : Span) : Action Store Unit := do
  Action.modify fun s => s.update h fun t => { t with histogram := t.histogram.update (sampleOf span) }
  Metered.mark (.timer h) 1

structure Timing where
  timer : Handle .timer
  start : Nat
deriving DecidableEq, Repr

def startTiming (h : Handle .timer) : Action Store Timing := do
  return ⟨h, (← Action.get).now⟩

def Timing.close (timing : Timing) : Action Store Span := do
  let elapsed := Span.ofNanos ((← Action.get).now - timing.start)
  record timing.timer elapsed
  return elapsed

def time {α : Type} (h : Handle .timer) (action : Action Store α) : Action Store α := do
  let timing ← startTiming h
  let result ← Action.attempt action
  let _ ← timing.close
  match result with
  | .ok a => return a
  | .error fault => Action.stop fault

end Timer

end MetricReporting
