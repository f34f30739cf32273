import MetricReporting.CommandLine.Service
import MetricReporting.CommandLine.Settings

namespace MetricReporting.CommandLine

inductive Course
  | exit (code : Nat) (output error : String)
  | serve (service : Service) (cycles : Option Nat)

namespace Course

def usage : String := "\n".intercalate
  ["Report in-process metrics as InfluxDB points", "",
    "Usage: metrics-influx [--config <CONFIG>] <COMMAND>", "", "Commands:",
    "  run     Drive a synthetic workload and print each cycle as JSON lines",
    "          [--period <PERIOD>] [--cycles <CYCLES>] [--skip-idle] [--tag <KEY=VALUE>]...",
    "          [--include <GLOB>]... [--exclude <GLOB>]... [--rate-unit <UNIT>] [--duration-unit <UNIT>]",
    "  config  Print the resolved configuration",
    "  help    Print this message", ""]

def ofRefusal (r : Refusal) : Course :=
  if r = .help then .exit r.exitCode usage "" else .exit r.exitCode "" usage

def ofFailed : Failed → Course
  | .flaw f => .exit 1 "" (f.report ++ "\n")
  | .panic payload => .exit 101 "" (payload.message ++ "\n")

variable [Globs] [SpanWords] [TomlFormat] [FloatFormat]

def ofCommand (command : Command) (c : Config) (runtime : Runtime := .observed) : Course :=
  match command with
  | .showConfig => .exit 0 c.toSpreadToml ""
  | .run arguments =>
    match Service.start c runtime with
    | .ok service => .serve service arguments.cycles
    | .error fault => ofFailed (.ofFault fault)

def ofArguments (s : Surroundings) (arguments : List String) (runtime : Runtime := .observed) : Course :=
  match Invocation.parse arguments with
  | .error r => ofRefusal r
  | .ok i =>
    match i.config s with
    | .error failed => ofFailed failed
    | .ok c => ofCommand i.command c runtime

end Course

end MetricReporting.CommandLine
