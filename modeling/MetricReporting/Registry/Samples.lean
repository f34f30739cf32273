import MetricReporting.Registry

namespace MetricReporting

namespace Registry

def fillWithSamples : Action Instruments Unit := do
  let depth ← Instruments.onStore (Action.modifyGet fun s => s.addProbe (.constant (.integer 5)))
  let _ ← gauge "queue.depth" depth
  let requests ← counter "http.requests"
  Instruments.onStore (Action.modify fun s => s.update requests (fun c : Counter => c.add 42))
  let payload ← histogram "http.payload_bytes"
  Instruments.onStore (Action.modify fun s => s.update payload
    (fun h : Histogram => [128, 256, 512, 1024, 2048].foldl Histogram.update h))
  let errors ← meter "http.errors"
  Instruments.onStore (Action.modify fun s => s.update errors (fun m : Meter Float => m.mark s.now 3))
  let latency ← timer "http.latency"
  [12, 15, 20, 35, 80].forM fun millis => Instruments.onStore (Timer.record latency (.ofMillis millis))

end Registry

end MetricReporting
