import MetricReporting.Registry

namespace MetricReporting

structure Traffic where
  depth : ProbeId
  requests : Handle .counter
  latency : Handle .timer
  payload : Handle .histogram
  errors : Handle .meter
deriving DecidableEq, Repr

namespace Traffic

def install : Action Instruments Traffic := do
  let depth ← Instruments.onStore (Action.modifyGet fun s => s.addProbe (.constant (.integer 0)))
  let _ ← Registry.gauge "queue.depth" depth
  return {
    depth
    requests := ← Registry.counter "http.requests"
    latency := ← Registry.timer "http.latency"
    payload := ← Registry.histogram "http.payload_bytes"
    errors := ← Registry.meter "http.errors" }

def duration (i : Nat) : Span := .ofMicros (2000 + i * 7919 % 48000)

def payloadBytes (i : Nat) : Int64 := Int64.ofNat (256 + i * 131 % 4096)

def request (t : Traffic) (i : Nat) : Action Store Unit := do
  Action.modify fun s => s.update t.requests fun c : Counter => c.add 1
  Timer.record t.latency (duration i)
  Action.modify fun s => s.update t.payload fun h : Histogram => h.update (payloadBytes i)
  -- One request in seventeen fails.
  if i % 17 = 0 then Metered.mark (.meter t.errors) 1
  Action.modify fun s => s.setProbe t.depth (.constant (.integer (Int64.ofNat (i % 32))))

def run (t : Traffic) (first count : Nat) : Action Store Unit :=
  (List.range' first count).forM t.request

end Traffic

end MetricReporting
