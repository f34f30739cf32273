import MetricReporting.Failure
import MetricReporting.Point

namespace MetricReporting.Tags

def readEntry (entry : List Char) : Except Failure (String × String) :=
  match Text.cut? '=' entry with
  | none => .error .tagWithoutValue
  | some (key, value) =>
    if (Text.stripped key).isEmpty then .error .blankTagKey
    else .ok (String.ofList (Text.stripped key), String.ofList (Text.stripped value))

def parse (text : String) : Except Failure Tags := do
  let entries := ((Text.pieces ',' text.toList).map Text.stripped).filter (!·.isEmpty)
  return NameMap.ofList (← entries.mapM readEntry)

end MetricReporting.Tags
