import MetricReporting.Action
import MetricReporting.Point

namespace MetricReporting

/-- A report cycle calls `flush`, `append` for each point, `hasData`, and `write` if that said so. -/
class Sender (σ : Type) where
  useTags : Tags → Action σ Unit
  flush : Action σ Unit
  append : Point → Action σ Unit
  hasData : Action σ Bool
  write : Action σ Unit

end MetricReporting
