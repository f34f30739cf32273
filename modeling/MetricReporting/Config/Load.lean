import MetricReporting.Config.File
import MetricReporting.FileTree

namespace MetricReporting

/-- What a configuration is read from. A variable whose value is no text counts as unset. -/
structure Surroundings where
  lookUp : String → Option String
  file : String → FileContent

namespace Config

def below (directory path : String) : String :=
  if path.startsWith "/" || directory.isEmpty then path
  else if directory.endsWith "/" then directory ++ path
  else directory ++ "/" ++ path

def filePath (s : Surroundings) : String :=
  match s.lookUp "METRICS_INFLUX_CONFIG" with
  | some path => path
  | none =>
    let home := (s.lookUp "HOME").getD "."
    below ((s.lookUp "XDG_CONFIG_HOME").getD (below home ".config")) "metrics-influx/config.toml"

def fileOverrides [TomlFormat] (s : Surroundings) (path : String) : Except Fault (Option Overrides) :=
  match s.file path with
  | .missing => .ok none
  | .directory => .error (.failure (.unreadableFile path "Is a directory (os error 21)"))
  | .bytes content =>
    match String.fromUTF8? content with
    | none => .error (.failure (.unreadableFile path "stream did not contain valid UTF-8"))
    | some text =>
      match Overrides.ofToml? text with
      | none => .error (.failure (.malformedFile path))
      | some o => .ok (some o)

def switch? (text : String) : Option Bool :=
  let word := Text.lower (Text.trim text)
  if ["1", "true", "yes", "on"].contains word then some true
  else if ["0", "false", "no", "off"].contains word then some false
  else none

def skipVariable (s : Surroundings) : Except Fault (Option Bool) :=
  match s.lookUp "METRICS_INFLUX_SKIP_IDLE" with
  | none => .ok none
  | some text =>
    match switch? text with
    | some b => .ok (some b)
    | none => .error (.failure (.badSwitch text))

def environmentOverrides (s : Surroundings) : Except Fault Overrides := do
  let skipIdle ← skipVariable s
  return {
    skipIdle
    tags := (s.lookUp "METRICS_INFLUX_TAGS").map .list
    rateUnit := s.lookUp "METRICS_INFLUX_RATE_UNIT"
    durationUnit := s.lookUp "METRICS_INFLUX_DURATION_UNIT"
    period := s.lookUp "METRICS_INFLUX_PERIOD"
    included := (s.lookUp "METRICS_INFLUX_INCLUDE").map Text.commaList
    excluded := (s.lookUp "METRICS_INFLUX_EXCLUDE").map Text.commaList }

def ofEnvironment [SpanWords] (s : Surroundings) (c : Config := {}) : Except Fault Config := do
  (← environmentOverrides s).apply .environment c

def ofFile [SpanWords] [TomlFormat] (s : Surroundings) (path : String) : Except Fault Config := do
  match ← fileOverrides s path with
  | none => .error (.failure (.missingFile path))
  | some o => o.apply .file {}

def load [SpanWords] [TomlFormat] (s : Surroundings) : Except Fault Config := do
  let c ← match ← fileOverrides s (filePath s) with
    | none => .ok {}
    | some o => o.apply .file {}
  ofEnvironment s c

end Config

end MetricReporting
