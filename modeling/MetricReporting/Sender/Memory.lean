import MetricReporting.Sender

namespace MetricReporting

structure Sender.Memory where
  tags : Tags := .empty
  pending : List Point := []
  batches : List (List Point) := []
deriving Inhabited

instance : Sender Sender.Memory where
  useTags tags := Action.modify fun s => { s with tags }
  flush := Action.modify fun s => { s with pending := [] }
  append point := Action.modify fun s => { s with pending := s.pending ++ [point] }
  hasData := do return !(← Action.get).pending.isEmpty
  write := Action.modify fun s => { s with pending := [], batches := s.batches ++ [s.pending] }

end MetricReporting
