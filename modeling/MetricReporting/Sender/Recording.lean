import MetricReporting.Sender

namespace MetricReporting

inductive Sender.Call
  | useTags (tags : Tags)
  | flush
  | append (point : Point)
  | hasData (answer : Bool)
  | write
deriving Inhabited

structure Sender.Recording where
  calls : List Sender.Call := []
  pending : List Point := []
  written : List Point := []
  flushFails : Bool := false
  appendFails : Bool := false
  writeFails : Bool := false
  dataAnswer : Option Bool := none
deriving Inhabited

namespace Sender.Recording

def record (call : Sender.Call) : Action Sender.Recording Unit :=
  Action.modify fun s => { s with calls := s.calls ++ [call] }

def failIf (told : Sender.Recording → Bool) (text : String) : Action Sender.Recording Unit := do
  if told (← Action.get) then Action.fail (.worded .sender text)

end Sender.Recording

instance : Sender Sender.Recording where
  useTags tags := Sender.Recording.record (.useTags tags)
  flush := do
    Sender.Recording.record .flush
    Sender.Recording.failIf (·.flushFails) "injected flush failure"
    Action.modify fun s => { s with pending := [] }
  append point := do
    Sender.Recording.record (.append point)
    Sender.Recording.failIf (·.appendFails) "injected append failure"
    Action.modify fun s => { s with pending := s.pending ++ [point] }
  hasData := do
    let s ← Action.get
    let answer := s.dataAnswer.getD !s.pending.isEmpty
    Sender.Recording.record (.hasData answer)
    return answer
  write := do
    Sender.Recording.record .write
    Sender.Recording.failIf (·.writeFails) "injected write failure"
    Action.modify fun s => { s with written := s.written ++ s.pending, pending := [] }

end MetricReporting
