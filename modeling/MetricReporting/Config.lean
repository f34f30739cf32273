import MetricReporting.Tags
import MetricReporting.TimeUnit

namespace MetricReporting

structure Config where
  rateUnit : TimeUnit := .seconds
  durationUnit : TimeUnit := .milliseconds
  skipIdle : Bool := false
  period : Span := .ofSeconds 10
  included : List String := []
  excluded : List String := []
  tags : Tags := .empty
deriving DecidableEq, Inhabited

inductive TagSetting
  | table (tags : Tags)
  | list (text : String)
deriving DecidableEq

structure Overrides where
  tags : Option TagSetting := none
  rateUnit : Option String := none
  durationUnit : Option String := none
  skipIdle : Option Bool := none
  period : Option String := none
  included : Option (List String) := none
  excluded : Option (List String) := none
deriving DecidableEq, Inhabited

def Span.exhausted : Panic := .text Span.Flaw.secondsExhausted.message

def Span.read [SpanWords] (cause : Span.Flaw → Failure) (text : String) : Except Fault Span :=
  match SpanWords.parse text with
  | .ok span => .ok span
  | .error .secondsExhausted => .error (.panic exhausted)
  | .error flaw => .error (.failure (cause flaw))

namespace Overrides

def unit (given : Option String) (otherwise : TimeUnit) (cause : String → Failure → Failure) :
    Except Fault TimeUnit :=
  match given with
  | none => .ok otherwise
  | some text => (TimeUnit.parse text).mapError fun f => .failure (cause text f)

def tagsOver (source : Source) (otherwise : Tags) : Option TagSetting → Except Fault Tags
  | none => .ok otherwise
  | some (.table tags) => .ok tags
  | some (.list text) => (Tags.parse text).mapError fun f => .failure (.badTags source text f)

def periodOver [SpanWords] (source : Source) (otherwise : Span) : Option String → Except Fault Span
  | none => .ok otherwise
  | some text => do
    let period ← Span.read (.badPeriod source text) text
    if period.isZero then .error (.failure (.zeroPeriod source)) else return period

def apply [SpanWords] (o : Overrides) (source : Source) (c : Config) : Except Fault Config := do
  let tags ← tagsOver source c.tags o.tags
  let rateUnit ← unit o.rateUnit c.rateUnit (.badRateUnit source)
  let durationUnit ← unit o.durationUnit c.durationUnit (.badDurationUnit source)
  let period ← periodOver source c.period o.period
  return {
    rateUnit, durationUnit, period, tags
    skipIdle := o.skipIdle.getD c.skipIdle
    included := o.included.getD c.included
    excluded := o.excluded.getD c.excluded }

end Overrides

end MetricReporting
