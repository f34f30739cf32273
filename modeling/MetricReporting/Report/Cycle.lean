import MetricReporting.Registry
import MetricReporting.Report.IdleTable
import MetricReporting.Report.Units

namespace MetricReporting

structure CycleSettings where
  units : Units := {}
  skipIdle : Bool := false
  filter : Filter := Filter.all

instance : Inhabited CycleSettings := ⟨{}⟩

def CycleSettings.describe (s : CycleSettings) : String :=
  let capital (unit : TimeUnit) : String := unit.name.capitalize
  s!"ReportSettings \x7b units: Units \x7b rate: {capital s.units.rate}, " ++
    s!"duration: {capital s.units.duration} \x7d, skip_idle_metrics: {s.skipIdle}, .. \x7d"

structure Cycle where
  points : List Point := []
  previous : IdleTable
  skipped : Nat := 0
  filtered : Nat := 0

namespace Cycle

def activity (metric : Metric) : Action Store (Option Int64) := do
  if metric.metered?.isSome then metric.readCount else return none

def push (c : Cycle) (point : Point) : Cycle := { c with points := c.points ++ [point] }

def suppress (c : Cycle) (settings : CycleSettings) (name : String) (metric : Metric) :
    Action Store (Bool × Cycle) := do
  match ← activity metric with
  | none => return (false, c)
  | some count =>
    let (skip, previous) ← Action.within c.previous (IdleTable.consult name count settings.skipIdle)
    return (skip, { c with previous, skipped := if skip then c.skipped + 1 else c.skipped })

def visit (settings : CycleSettings) (now : Instant) (c : Cycle) (entry : String × Metric) :
    Action Store Cycle := do
  let (name, metric) := entry
  match settings.filter (← Action.get) name metric with
  | .error payload => Action.panic payload
  | .ok false => return { c with filtered := c.filtered + 1 }
  | .ok true =>
    let (skip, c) ← c.suppress settings name metric
    if skip then return c
    return c.push (.observed now name (← settings.units.fields metric))

def build (snapshot : Snapshot) (settings : CycleSettings) (previous : IdleTable) (now : Instant) :
    Action Store Cycle :=
  snapshot.entries.foldlM (visit settings now) { previous }

end Cycle

end MetricReporting
