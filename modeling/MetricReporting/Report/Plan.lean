import MetricReporting.Config
import MetricReporting.Report.Cycle

namespace MetricReporting

structure ReporterPlan where
  tags : Tags := .empty
  settings : CycleSettings := {}
deriving Inhabited

def ReporterPlan.ofConfig [Globs] (c : Config) : Except Failure ReporterPlan := do
  let globs ← NamePatterns.parse c.included c.excluded
  return {
    tags := c.tags
    settings := {
      units := { rate := c.rateUnit, duration := c.durationUnit }
      skipIdle := c.skipIdle
      filter := if globs.admitsAll then Filter.all else globs.filter } }

end MetricReporting
