import MetricReporting.Failure

namespace MetricReporting

inductive Outcome
  | written (points skipped : Nat)
  | nothingToWrite (skipped : Nat)
  | discarded
deriving DecidableEq, Repr

def Outcome.describe : Outcome → String
  | written points skipped => s!"Written \x7b points: {points}, skipped: {skipped} \x7d"
  | nothingToWrite skipped => s!"NothingToWrite \x7b skipped: {skipped} \x7d"
  | discarded => "Discarded"

inductive Level
  | debug
  | info
  | warn
deriving DecidableEq, Repr

def Level.name : Level → String
  | debug => "DEBUG"
  | info => "INFO"
  | warn => "WARN"

inductive Event
  | registered (name : String) (kind : Kind)
  | wentBackwards (name : String) (previous count : Int64)
  | dataDiscarded (cause : Failure)
  | fieldDropped (measurement field : String) (value : Float)
  | cycleComplete (points skipped filtered : Nat)
  | scheduleStarted (period : Span)
  | scheduledReport (outcome : Outcome)
  | scheduleStopped (outcome : Outcome)

namespace Event

def level : Event → Level
  | wentBackwards .. | dataDiscarded _ => .warn
  | scheduleStarted _ | scheduleStopped _ => .info
  | registered .. | fieldDropped .. | cycleComplete .. | scheduledReport _ => .debug

def message : Event → String
  | registered .. => "registered metric"
  | wentBackwards .. => "non-monotonic value observed for metric"
  | dataDiscarded _ => "unable to report to InfluxDB, discarding data"
  | fieldDropped .. => "dropping non-finite field"
  | cycleComplete .. => "report cycle complete"
  | scheduleStarted _ => "scheduled reporter started"
  | scheduledReport _ => "scheduled report"
  | scheduleStopped _ => "scheduled reporter stopped"

def nonFinite (x : Float) : String :=
  if x.isNaN then "NaN" else if 0 < x then "inf" else "-inf"

def fields : Event → List (String × String)
  | registered name kind => [("metric", name), ("kind", kind.name)]
  | wentBackwards name previous count =>
    [("metric", name), ("previous", toString previous.toInt), ("count", toString count.toInt)]
  | dataDiscarded cause => [("error", cause.message)]
  | fieldDropped measurement field value =>
    [("measurement", measurement), ("field", field), ("value", nonFinite value)]
  | cycleComplete points skipped filtered =>
    [("points", toString points), ("skipped", toString skipped), ("filtered", toString filtered)]
  | scheduleStarted period => [("period", period.brief)]
  | scheduledReport outcome => [("outcome", outcome.describe)]
  | scheduleStopped outcome => [("outcome", outcome.describe)]

end Event

end MetricReporting
