import MetricReporting.Store

namespace MetricReporting

structure Snapshot where
  gauges : NameMap (Handle .gauge) := .empty
  counters : NameMap (Handle .counter) := .empty
  histograms : NameMap (Handle .histogram) := .empty
  meters : NameMap (Handle .meter) := .empty
  timers : NameMap (Handle .timer) := .empty
deriving Inhabited, DecidableEq

namespace Snapshot

def ofKind (s : Snapshot) : (kind : Kind) → NameMap (Handle kind)
  | .gauge => s.gauges
  | .counter => s.counters
  | .histogram => s.histograms
  | .meter => s.meters
  | .timer => s.timers

def insert (s : Snapshot) (name : String) : Metric → Snapshot
  | ⟨.gauge, h⟩ => { s with gauges := s.gauges.insert name h }
  | ⟨.counter, h⟩ => { s with counters := s.counters.insert name h }
  | ⟨.histogram, h⟩ => { s with histograms := s.histograms.insert name h }
  | ⟨.meter, h⟩ => { s with meters := s.meters.insert name h }
  | ⟨.timer, h⟩ => { s with timers := s.timers.insert name h }

def entries (s : Snapshot) : List (String × Metric) :=
  Kind.all.flatMap fun kind => (s.ofKind kind).entries.map (fun e => (e.1, ⟨kind, e.2⟩))

def size (s : Snapshot) : Nat :=
  s.gauges.size + s.counters.size + s.histograms.size + s.meters.size + s.timers.size

theorem length_entries (s : Snapshot) : s.entries.length = s.size := by
  simp only [entries, Kind.all, List.flatMap_cons, List.flatMap_nil, List.length_append,
    List.length_map, List.length_nil, ofKind, size, NameMap.size]
  omega

end Snapshot

end MetricReporting
