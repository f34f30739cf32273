import MetricReporting.CommandLine.Arguments
import MetricReporting.Config.Load

namespace MetricReporting.CommandLine

inductive Flaw
  | load (cause : Failure)
  | badPeriod (text : String) (flaw : Span.Flaw)
  | zeroPeriod
  | badTag (text : String) (cause : Failure)
  | badRateUnit (text : String) (cause : Failure)
  | badDurationUnit (text : String) (cause : Failure)
deriving DecidableEq, Repr

namespace Flaw

def messages : Flaw → List String
  | load cause => [cause.message]
  | badPeriod text flaw => [s!"bad --period {text}", flaw.message]
  | zeroPeriod => ["--period must be greater than zero"]
  | badTag text cause => [s!"bad --tag {text}", cause.message]
  | badRateUnit text cause => [s!"bad --rate-unit {text}", cause.message]
  | badDurationUnit text cause => [s!"bad --duration-unit {text}", cause.message]

def setIn (text : String) : String :=
  "    " ++ "\n    ".intercalate ((Text.pieces '\n' text.toList).map String.ofList)

def report (f : Flaw) : String :=
  match f.messages with
  | [] => "Error: "
  | [message] => "Error: " ++ message
  | message :: causes => "Error: " ++ message ++ "\n\nCaused by:\n" ++ "\n".intercalate (causes.map setIn)

end Flaw

inductive Failed
  | flaw (f : Flaw)
  | panic (payload : Panic)
deriving DecidableEq, Repr

def Failed.ofFault : Fault → Failed
  | .failure cause => .flaw (.load cause)
  | .panic payload => .panic payload

namespace RunArguments

def periodOver [SpanWords] (a : RunArguments) (otherwise : Span) : Except Failed Span :=
  match a.period with
  | none => .ok otherwise
  | some text =>
    match SpanWords.parse text with
    | .error .secondsExhausted => .error (.panic Span.exhausted)
    | .error flaw => .error (.flaw (.badPeriod text flaw))
    | .ok period => if period.isZero then .error (.flaw .zeroPeriod) else .ok period

def tagsOver (a : RunArguments) (tags : Tags) : Except Failed Tags :=
  a.tags.foldlM (fun tags text =>
    match Tags.parse text with
    | .ok more => .ok (tags.overlay more)
    | .error cause => .error (.flaw (.badTag text cause))) tags

def unitOver (given : Option String) (otherwise : TimeUnit) (flaw : String → Failure → Flaw) :
    Except Failed TimeUnit :=
  match given with
  | none => .ok otherwise
  | some text => (TimeUnit.parse text).mapError fun cause => .flaw (flaw text cause)

def apply [SpanWords] (a : RunArguments) (c : Config) : Except Failed Config := do
  let period ← a.periodOver c.period
  let tags ← a.tagsOver c.tags
  let rateUnit ← unitOver a.rateUnit c.rateUnit .badRateUnit
  let durationUnit ← unitOver a.durationUnit c.durationUnit .badDurationUnit
  return {
    period, tags, rateUnit, durationUnit
    skipIdle := a.skipIdle || c.skipIdle
    included := if a.included.isEmpty then c.included else a.included
    excluded := if a.excluded.isEmpty then c.excluded else a.excluded }

end RunArguments

namespace Invocation

def loaded [SpanWords] [TomlFormat] (i : Invocation) (s : Surroundings) : Except Failed Config :=
  (match i.configPath with
    | some path => Config.ofFile s path
    | none => Config.load s).mapError .ofFault

def config [SpanWords] [TomlFormat] (i : Invocation) (s : Surroundings) : Except Failed Config := do
  let c ← i.loaded s
  match i.command with
  | .run arguments => arguments.apply c
  | .showConfig => return c

end Invocation

end MetricReporting.CommandLine
