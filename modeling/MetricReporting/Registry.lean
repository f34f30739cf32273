import MetricReporting.Filter
import MetricReporting.Registry.Snapshot

namespace MetricReporting

structure Registry where
  metrics : NameMap Metric := .empty
  /-- Set for good by a panic while the registry was held. -/
  poisoned : Bool := false
deriving Inhabited

structure Instruments where
  store : Store := {}
  registry : Registry := {}
deriving Inhabited

def Instruments.onStore {α : Type} (action : Action Store α) : Action Instruments α :=
  action.on store (fun store i => { i with store })

namespace Registry

def poison : Panic := .text "registry mutex poisoned: PoisonError \x7b .. \x7d"

def metricsByName : Action Instruments (NameMap Metric) := do
  let i ← Action.get
  if i.registry.poisoned then Action.panic poison else return i.registry.metrics

def checkName (name : String) : Action Instruments Unit :=
  if (Text.stripped name.toList).isEmpty then Action.fail .blankName else return ()

def enter (metrics : NameMap Metric) (name : String) (metric : Metric) : Action Instruments Unit := do
  Action.log (.registered name metric.kind)
  Action.modify fun i => { i with registry := { i.registry with metrics := metrics.insert name metric } }

def create {kind : Kind} (object : Store → kind.Object) : Action Instruments (Handle kind) :=
  Instruments.onStore (Action.modifyGet fun s => s.add (object s))

def getOrCreate (kind : Kind) (object : Store → kind.Object) (name : String) :
    Action Instruments (Handle kind) := do
  checkName name
  let metrics ← metricsByName
  match metrics.get? name with
  | none =>
    let h ← create object
    enter metrics name ⟨kind, h⟩
    return h
  | some ⟨found, h⟩ =>
    if same : found = kind then return same ▸ h
    else Action.fail (.kindMismatch name found kind)

def counter (name : String) : Action Instruments (Handle .counter) :=
  getOrCreate .counter (fun _ => {}) name

def histogram (name : String) : Action Instruments (Handle .histogram) :=
  getOrCreate .histogram (fun _ => Histogram.empty) name

def meter (name : String) : Action Instruments (Handle .meter) :=
  getOrCreate .meter (fun s => Meter.startedAt s.now) name

def timer (name : String) : Action Instruments (Handle .timer) :=
  getOrCreate .timer (fun s => Timer.startedAt s.now) name

def gauge (name : String) (probe : ProbeId) : Action Instruments (Handle .gauge) :=
  getOrCreate .gauge (fun _ => ⟨probe⟩) name

def register (name : String) (metric : Metric) : Action Instruments Unit := do
  checkName name
  let metrics ← metricsByName
  if metrics.contains name then Action.fail (.nameTaken name) else enter metrics name metric

def remove (name : String) : Action Instruments Bool := do
  let metrics ← metricsByName
  Action.modify fun i => { i with registry := { i.registry with metrics := metrics.erase name } }
  return metrics.contains name

def get? (name : String) : Action Instruments (Option Metric) := do
  return (← metricsByName).get? name

def names : Action Instruments (List String) := do
  return (← metricsByName).names

def size : Action Instruments Nat := do
  return (← metricsByName).size

/-- The metrics that a filter admits. A filter that panics leaves the registry poisoned. -/
def select (filter : Filter) : Action Instruments Snapshot := do
  let metrics ← metricsByName
  let i ← Action.get
  let admitted := metrics.entries.foldlM (fun (s : Snapshot) e => do
    return if ← filter i.store e.1 e.2 then s.insert e.1 e.2 else s) {}
  match admitted with
  | .ok s => return s
  | .error payload =>
    Action.set { i with registry := { i.registry with poisoned := true } }
    Action.panic payload

def snapshot : Action Instruments Snapshot := select Filter.all

end Registry

end MetricReporting
