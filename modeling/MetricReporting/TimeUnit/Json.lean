import MetricReporting.Json.Reader
import MetricReporting.TimeUnit

namespace MetricReporting.TimeUnit

variable [FloatFormat]

def json (unit : TimeUnit) : String := Json.quote unit.name

def read (cs : List Char) : Except Json.Flaw (TimeUnit × List Char) := do
  let (word, rest) ← Json.string cs
  match parse word with
  | .ok unit => return (unit, rest)
  | .error _ => .error .mismatched

def ofJson (text : String) : Except Json.Flaw TimeUnit := Json.document read text

end MetricReporting.TimeUnit
