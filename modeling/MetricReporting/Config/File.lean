import MetricReporting.Config
import MetricReporting.Toml.Document
import MetricReporting.Toml.Writer

namespace MetricReporting

namespace Overrides

def setting {α : Type} (document : Toml.Entries) (key : String) (shape : Toml.Value → Option α) :
    Option (Option α) :=
  match document.get? key with
  | none => some none
  | some v => (shape v).map some

def tagSetting? (v : Toml.Value) : Option TagSetting :=
  match v.textTable? with
  | some entries => some (.table (NameMap.ofList entries))
  | none => v.text?.map .list

def ofDocument? (document : Toml.Entries) : Option Overrides := do
  return {
    tags := ← setting document "tags" tagSetting?
    rateUnit := ← setting document "rate_unit" Toml.Value.text?
    durationUnit := ← setting document "duration_unit" Toml.Value.text?
    skipIdle := ← setting document "skip_idle_metrics" Toml.Value.flag?
    period := ← setting document "period" Toml.Value.text?
    included := ← setting document "include" Toml.Value.texts?
    excluded := ← setting document "exclude" Toml.Value.texts? }

def ofToml? [TomlFormat] (text : String) : Option Overrides := TomlFormat.parse? text >>= ofDocument?

end Overrides

namespace Config

def ofDocument? (document : Toml.Entries) (period : Span) : Option Config := do
  let text (key : String) : Option String := document.get? key >>= Toml.Value.text?
  let texts (key : String) : Option (List String) := document.get? key >>= Toml.Value.texts?
  return {
    period
    rateUnit := ← (TimeUnit.parse (← text "rate_unit")).toOption
    durationUnit := ← (TimeUnit.parse (← text "duration_unit")).toOption
    skipIdle := ← document.get? "skip_idle_metrics" >>= Toml.Value.flag?
    included := ← texts "include"
    excluded := ← texts "exclude"
    tags := NameMap.ofList (← document.get? "tags" >>= Toml.Value.textTable?) }

def hasShape (entry : String × Toml.Value) : Bool :=
  let (key, v) := entry
  if key = "rate_unit" ∨ key = "duration_unit" then v.text?.any fun word => (TimeUnit.parse word).isOk
  else if key = "skip_idle_metrics" then v.flag?.isSome
  else if key = "include" ∨ key = "exclude" then v.texts?.isSome
  else if key = "tags" then v.textTable?.isSome
  else true

def ofToml [SpanWords] [TomlFormat] (text : String) : Except Panic (Option Config) :=
  match TomlFormat.parse? text with
  | none => .ok none
  | some document =>
    match (document.get? "period" >>= Toml.Value.text?).map SpanWords.parse with
    | some (.ok period) => .ok (ofDocument? document period)
    | some (.error .secondsExhausted) =>
      if (document.takeWhile (·.1 != "period")).all hasShape then .error Span.exhausted else .ok none
    | _ => .ok none

def sheet [SpanWords] (c : Config) : Toml.Sheet where
  settings := [
    ("rate_unit", .text c.rateUnit.name), ("duration_unit", .text c.durationUnit.name),
    ("skip_idle_metrics", .flag c.skipIdle), ("period", .text (SpanWords.render c.period)),
    ("include", .texts c.included), ("exclude", .texts c.excluded)]
  table := "tags"
  rows := c.tags.entries

def toToml [SpanWords] [TomlFormat] (c : Config) : String := TomlFormat.write c.sheet

def toSpreadToml [SpanWords] [TomlFormat] (c : Config) : String := TomlFormat.writeSpread c.sheet

end Config

end MetricReporting
