import MetricReporting.FieldValue
import MetricReporting.Instant
import MetricReporting.NameMap

namespace MetricReporting

abbrev Tags := NameMap String

abbrev Fields := NameMap FieldValue

structure Point where
  measurement : String
  tags : Option Tags
  timestamp : String
  fields : Fields
deriving Inhabited

namespace Point

def observed (now : Instant) (measurement : String) (fields : Fields) : Point :=
  ⟨measurement, none, toString now.millis, fields⟩

def field? (p : Point) (name : String) : Option FieldValue := p.fields.get? name

end Point

end MetricReporting
