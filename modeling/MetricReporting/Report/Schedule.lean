import MetricReporting.Report.Reporter
import MetricReporting.Report.Ticker

namespace MetricReporting

structure Schedule (σ : Type) where
  station : Station σ
  now : Nat := 0
  ticker : Option Ticker
  crashed : Bool := false

namespace Schedule

variable {σ α : Type}

def withStation (action : Action (Station σ) α) : Action (Schedule σ) α :=
  action.on (·.station) (fun station s => { s with station })

def withInstruments (action : Action Instruments α) : Action (Schedule σ) α :=
  withStation (Station.withInstruments action)

/-- The schedule of a reporter whose first cycle comes one period after the start. The ticking panics at once if the
clock does not get as far as that. -/
def start (station : Station σ) (period : Span) (now : Nat) (runtime : Runtime := .observed) :
    Action Unit (Schedule σ) :=
  if h : period.nanos = 0 then Action.fail .zeroReportPeriod
  else do
    Action.log (.scheduleStarted period)
    return {
      station, now
      ticker := some (.startedAt runtime now period.nanos (Nat.pos_of_ne_zero h))
      crashed := runtime.isBeyondReach now period }

variable [Sender σ]

def report : Action (Schedule σ) Outcome := do
  let s ← Action.get
  withStation (Reporter.reportInstruments (Instant.ofEpochNanos s.now))

def tick (now : Nat) : Action (Schedule σ) Unit := do
  if (← Action.get).crashed then return ()
  Action.modify fun s => { s with now }
  match ← Action.attempt report with
  | .ok outcome => Action.log (.scheduledReport outcome)
  | .error _ => Action.modify fun s => { s with crashed := true }

/-- Lets time pass, with the ticks that fall into it. One due at the end of it comes when more time passes. -/
def sleep (span : Span) : Action (Schedule σ) Unit := do
  let s ← Action.get
  let deadline := s.now + span.nanos
  match s.ticker with
  | none => pure ()
  | some t =>
    let (instants, last) := t.before s.now deadline
    instants.forM tick
    Action.modify fun s => { s with ticker := some last }
  Action.modify fun s => { s with now := deadline }

def leap (span : Span) : Action (Schedule σ) Unit :=
  Action.modify fun s => { s with now := s.now + span.nanos }

/-- Ends the ticking and runs one last cycle. If a panic has stopped the ticking, none is run. -/
def stop : Action (Schedule σ) (Reporter σ) := do
  Action.modify fun s => { s with ticker := none }
  if (← Action.get).crashed then Action.fail .scheduleFailed
  let outcome ← report
  Action.log (.scheduleStopped outcome)
  return (← Action.get).station.reporter

end Schedule

end MetricReporting
