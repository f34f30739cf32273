import MetricReporting.CommandLine.Course

namespace MetricReporting.CommandLine

def contentAt (path : String) : IO FileContent := do
  try
    return .bytes (← IO.FS.readBinFile path)
  catch _ =>
    try
      return if ← (← IO.FS.realPath path).isDir then .directory else .missing
    catch _ => return .missing

def variableNames : List String :=
  ["HOME", "XDG_CONFIG_HOME", "METRICS_INFLUX_CONFIG", "METRICS_INFLUX_SKIP_IDLE", "METRICS_INFLUX_TAGS",
    "METRICS_INFLUX_RATE_UNIT", "METRICS_INFLUX_DURATION_UNIT", "METRICS_INFLUX_PERIOD",
    "METRICS_INFLUX_INCLUDE", "METRICS_INFLUX_EXCLUDE"]

def surroundings (arguments : List String) : IO Surroundings := do
  let values ← variableNames.filterMapM fun name => do
    return (← IO.getEnv name).map fun value => (name, value)
  let lookUp (name : String) : Option String := values.lookup name
  let asked := (Invocation.parse arguments).toOption.bind (·.configPath)
  let path := asked.getD (Config.filePath ⟨lookUp, fun _ => .missing⟩)
  let content ← contentAt path
  return ⟨lookUp, fun p => if p = path then content else .missing⟩

def timeOfDay : IO Instant := do
  let (_, path) ← IO.FS.createTempFile
  let stamp := (← path.metadata).modified
  IO.FS.removeFile path
  return ⟨stamp.sec, stamp.nsec.toNat⟩

partial def sleepUntil (instant : Nat) : IO Unit := do
  let now ← IO.monoNanosNow
  if now < instant then
    IO.sleep (min 1000 ((instant - now + 999999) / 1000000)).toUInt32
    sleepUntil instant

def wait (start : Nat) (service : Service) : IO Service.Round := do
  sleepUntil (start + service.ticker.due)
  return service.nextRound (← timeOfDay)

def print (service : Service) : IO Service := do
  let (written, service) := service.takeOutput
  let out ← IO.getStdout
  out.write written
  out.flush
  return service

def execute (arguments : List String) : IO UInt32 := do
  let start ← IO.monoNanosNow
  match Course.ofArguments (← surroundings arguments) arguments { Runtime.observed with origin := start } with
  | .exit code output error =>
    IO.print output
    IO.eprint error
    return code.toUInt32
  | .serve service (some cycles) =>
    let _ ← service.serve (wait start) print cycles
    return 0
  | .serve service none =>
    let mut service := service
    repeat service ← service.serve (wait start) print 1
    return 0

end MetricReporting.CommandLine

def main (arguments : List String) : IO UInt32 := MetricReporting.CommandLine.execute arguments
