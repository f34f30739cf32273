import MetricReporting.Config
import MetricReporting.Report.Reporter
import MetricReporting.Report.Ticker
import MetricReporting.Sender.JsonLines
import MetricReporting.Traffic
/-!
The synthetic service under report: requests at fixed intervals, and a report cycle at every tick. Instants are in
nanoseconds since the start. What falls due between two cycles is made up for at the second.
-/
namespace MetricReporting.CommandLine

structure Service where
  station : Station Sender.JsonLines
  traffic : Traffic
  ticker : Ticker
  requests : Nat := 0

namespace Service

variable [FloatFormat]

def beyondReach : Panic := .text "overflow when adding duration to instant"

def zeroPeriod : Panic := .text "`period` must be non-zero."

def start [Globs] (c : Config) (runtime : Runtime := .observed) : Except Fault Service := do
  let installed := Traffic.install {}
  let traffic ← installed.result
  let plan ← (ReporterPlan.ofConfig c).mapError .failure
  let opened := Reporter.ofPlan plan ({} : Sender.JsonLines) ()
  let reporter ← opened.result
  if runtime.isBeyondReach 0 c.period then .error (.panic beyondReach)
  if h : c.period.nanos = 0 then .error (.panic zeroPeriod)
  else return {
    traffic
    station := ⟨reporter, installed.state⟩
    ticker := .startedAt runtime 0 c.period.nanos (Nat.pos_of_ne_zero h) }

def atInstant (s : Service) (now : Nat) (action : Action (Station Sender.JsonLines) Unit) : Service :=
  let setClock : Action (Station Sender.JsonLines) Unit :=
    Station.withStore (Action.modify fun store => { store with clock := ⟨now.toUInt64⟩ })
  { s with station := ((do setClock; action) s.station).state }

def stepAt (s : Service) (now : Nat) : Service :=
  { s.atInstant now (Station.withStore (s.traffic.request s.requests)) with requests := s.requests + 1 }

def reportAt (s : Service) (now : Nat) (time : Instant) : Service :=
  { s.atInstant now (do let _ ← Reporter.reportInstruments time) with ticker := s.ticker.later 1 }

structure Round where
  requests : List Nat
  now : Nat
  time : Instant
deriving Inhabited

def run (s : Service) (r : Round) : Service := (r.requests.foldl stepAt s).reportAt r.now r.time

def interval : Span := .ofMillis 20

def requestsBy (now : Nat) : Nat := now / interval.nanos + 1

def nextRound (s : Service) (time : Instant) : Round where
  requests := (List.range (requestsBy s.ticker.due - s.requests)).map fun k => (s.requests + k) * interval.nanos
  now := s.ticker.due
  time

/-- So many cycles, each of which is waited for and then printed. -/
def serve {m : Type → Type} [Monad m] (wait : Service → m Round) (print : Service → m Service) :
    Nat → Service → m Service
  | 0, s => return s
  | n + 1, s => do
    let round ← wait s
    let s ← print (s.run round)
    serve wait print n s

def cyclesFrom (s : Service) (count : Nat) : Service :=
  Id.run (serve (fun s => return s.nextRound (Instant.ofEpochNanos s.ticker.due)) (fun s => return s) count s)

def takeOutput (s : Service) : ByteArray × Service :=
  let out := s.station.reporter.sender.out
  (out.written, { s with station := { s.station with reporter := { s.station.reporter with
    sender := { s.station.reporter.sender with out := { out with written := ByteArray.empty } } } } })

end Service

end MetricReporting.CommandLine
