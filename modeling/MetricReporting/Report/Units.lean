import MetricReporting.Store
import MetricReporting.TimeUnit

namespace MetricReporting

structure Units where
  rate : TimeUnit := .seconds
  duration : TimeUnit := .milliseconds
deriving DecidableEq, Repr, Inhabited

namespace Units

def rateFields (units : Units) (metered : Metered) : Action Store (List (String × FieldValue)) := do
  let m1 ← metered.readRate .m1
  let m5 ← metered.readRate .m5
  let m15 ← metered.readRate .m15
  let mean ← metered.meanRate
  return [("m1_rate", m1), ("m5_rate", m5), ("m15_rate", m15), ("mean_rate", mean)].map
    fun r => (r.1, .float (units.rate.perUnit r.2))

def valueFields (h : Histogram) : List (String × FieldValue) :=
  let s := h.sample
  [("count", .integer h.count), ("min", .integer s.min), ("max", .integer s.max),
    ("mean", .float s.mean), ("stddev", .float s.standardDeviation)] ++
    Sample.percentiles.map (fun p => (p.1, .float (s.quantile p.2)))

def durationFields (units : Units) (h : Histogram) : List (String × FieldValue) :=
  let s := h.sample
  ("count", .integer h.count) ::
    ([("min", Scalar.ofInt s.min.toInt), ("max", Scalar.ofInt s.max.toInt), ("mean", s.mean),
      ("stddev", s.standardDeviation)] ++
        Sample.percentiles.map (fun p : String × Float => (p.1, s.quantile p.2))).map
      fun d => (d.1, .float (units.duration.inUnits d.2))

def fields (units : Units) : Metric → Action Store Fields
  | ⟨.gauge, h⟩ => do
    return NameMap.ofList [("value", ← Gauge.read h)]
  | ⟨.counter, h⟩ => do
    let c : Counter := (← Action.get).get h
    return NameMap.ofList [("count", .integer c.count)]
  | ⟨.histogram, h⟩ => do
    let histogram : Histogram := (← Action.get).get h
    return NameMap.ofList (valueFields histogram)
  | ⟨.meter, h⟩ => do
    let m ← Metered.hold (.meter h)
    let rates ← units.rateFields (.meter h)
    return NameMap.ofList (("count", .integer m.count) :: rates)
  | ⟨.timer, h⟩ => do
    let t : Timer Float := (← Action.get).get h
    let rates ← units.rateFields (.timer h)
    return NameMap.ofList (units.durationFields t.histogram ++ rates)

end Units

end MetricReporting
