import MetricReporting.Report.Plan
import MetricReporting.Report.Station
import MetricReporting.Sender
/-!
Reporters: each call builds a cycle from a snapshot and hands its points to a sender. A cycle counts as reported
only as a whole: whatever goes wrong in it, it is discarded, and the idle table stays as it was.
-/
namespace MetricReporting

namespace Reporter

variable {σ : Type} [Sender σ]

def ofPlan (plan : ReporterPlan) (sender : σ) : Action Unit (Reporter σ) := fun _ =>
  let step := Sender.useTags plan.tags sender
  { result := step.result.map fun _ => { sender := step.state, settings := plan.settings }
    state := (), events := step.events }

def deliver (cycle : Cycle) : Action σ Outcome := do
  cycle.points.forM Sender.append
  if ← Sender.hasData then
    Sender.write
    return .written cycle.points.length cycle.skipped
  else
    return .nothingToWrite cycle.skipped

def cycle (snapshot : Snapshot) (now : Instant) : Action (Station σ) Outcome := do
  Station.withSender Sender.flush
  let r := (← Action.get).reporter
  let cycle ← Station.withStore (Cycle.build snapshot r.settings r.previous now)
  let outcome ← Station.withSender (deliver cycle)
  Action.modify fun s => { s with reporter := { s.reporter with previous := cycle.previous } }
  Action.log (.cycleComplete cycle.points.length cycle.skipped cycle.filtered)
  return outcome

/-- Reports a snapshot. A failure or a panic in the cycle is logged and discards it. -/
def report (snapshot : Snapshot) (now : Instant) : Action (Station σ) Outcome := do
  match ← Action.attempt (cycle snapshot now) with
  | .ok outcome => return outcome
  | .error fault =>
    Action.log (.dataDiscarded fault.caught)
    return .discarded

def reportInstruments (now : Instant) : Action (Station σ) Outcome := do
  let snapshot ← Station.withInstruments Registry.snapshot
  report snapshot now

end Reporter

end MetricReporting
