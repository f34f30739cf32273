import MetricReporting.Glob
import MetricReporting.Kind
import MetricReporting.Span.Wording
/-!
What can go wrong: failures, which are answered, and panics, which unwind. A failure is its cause; the wording
is in `Failure.message` alone.
-/
namespace MetricReporting

inductive Category
  | invalidArgument
  | config
  | parse
  | sender
  | registry
  | io
  | internal
deriving DecidableEq, Repr

def Category.label : Category → String
  | invalidArgument => "invalid argument"
  | config => "configuration error"
  | parse => "parse error"
  | sender => "sender error"
  | registry => "registry error"
  | io => "io error"
  | internal => "internal error"

inductive Source
  | file
  | environment
deriving DecidableEq, Repr

def Source.name : Source → String
  | file => "config file"
  | environment => "environment"

inductive Failure
  | blankName
  | badPattern (pattern : String) (flaw : Glob.Flaw)
  | zeroReportPeriod
  | tagWithoutValue
  | blankTagKey
  | missingFile (path : String)
  | unreadableFile (path reason : String)
  | malformedFile (path : String)
  | badTags (source : Source) (value : String) (cause : Failure)
  | badRateUnit (source : Source) (value : String) (cause : Failure)
  | badDurationUnit (source : Source) (value : String) (cause : Failure)
  | badPeriod (source : Source) (value : String) (flaw : Span.Flaw)
  | zeroPeriod (source : Source)
  | badSwitch (value : String)
  | unknownTimeUnit (text : String)
  | kindMismatch (name : String) (found wanted : Kind)
  | nameTaken (name : String)
  | encodingStopped (reason : String)
  | lineEndStopped (reason : String)
  | outputNotFlushed (reason : String)
  | readPanicked (text : String)
  | scheduleFailed
  | worded (category : Category) (text : String)
deriving DecidableEq, Repr

namespace Failure

def category : Failure → Category
  | blankName | badPattern .. | zeroReportPeriod => .invalidArgument
  | tagWithoutValue | blankTagKey | missingFile _ | unreadableFile .. | malformedFile _ | badTags ..
  | badRateUnit .. | badDurationUnit .. | badPeriod .. | zeroPeriod _ | badSwitch _ => .config
  | unknownTimeUnit _ => .parse
  | encodingStopped _ => .sender
  | kindMismatch .. | nameTaken _ => .registry
  | lineEndStopped _ | outputNotFlushed _ => .io
  | readPanicked _ | scheduleFailed => .internal
  | worded category _ => category

mutual

def detail : Failure → String
  | blankName => "metric name cannot be empty"
  | badPattern pattern flaw => s!"bad filter glob {pattern}: " ++ flaw.message
  | zeroReportPeriod => "report period must be greater than zero"
  | tagWithoutValue => "tag entries must use key=value syntax"
  | blankTagKey => "tag key cannot be empty"
  | missingFile path => s!"config file not found: {path}"
  | unreadableFile path reason => s!"failed reading {path}: {reason}"
  | malformedFile path => s!"failed parsing {path}"
  | badTags source value cause => s!"bad tags in {source.name}: " ++ message cause ++ s!" (value={value})"
  | badRateUnit source value cause =>
    s!"bad rate_unit in {source.name}: " ++ message cause ++ s!" (value={value})"
  | badDurationUnit source value cause =>
    s!"bad duration_unit in {source.name}: " ++ message cause ++ s!" (value={value})"
  | badPeriod source value flaw =>
    s!"bad period in {source.name}: " ++ flaw.message ++ s!" (value={value})"
  | zeroPeriod source => s!"bad period in {source.name}: must be greater than zero"
  | badSwitch value =>
    s!"bad METRICS_INFLUX_SKIP_IDLE in environment: expected a boolean, got {value}"
  | unknownTimeUnit text => s!"unknown time unit: {text}"
  | kindMismatch name found wanted =>
    s!"metric {name} is registered as a {found.name}, not a {wanted.name}"
  | nameTaken name => s!"a metric named {name} already exists"
  | encodingStopped reason => s!"failed encoding point: {reason}"
  | lineEndStopped reason => s!"failed writing point: {reason}"
  | outputNotFlushed reason => s!"failed flushing output: {reason}"
  | readPanicked text => s!"metric read panicked: {text}"
  | scheduleFailed => "report task failed"
  | worded _ text => text

def message (f : Failure) : String := (category f).label ++ ": " ++ detail f

end

end Failure

inductive Panic
  | text (message : String)
  | wordless
deriving DecidableEq, Repr

def Panic.message : Panic → String
  | text message => message
  | wordless => "unknown panic"

inductive Fault
  | failure (cause : Failure)
  | panic (payload : Panic)
deriving DecidableEq, Repr

def Fault.caught : Fault → Failure
  | failure cause => cause
  | panic payload => .readPanicked payload.message

end MetricReporting
