import MetricReporting.Point.Json
import MetricReporting.Sender

namespace MetricReporting

structure Output where
  written : ByteArray := ByteArray.empty
  room : Option Nat := none
  fullReason : String := "disk full"
  flushReason : Option String := none

instance : Inhabited Output := ⟨{}⟩

namespace Output

def put (o : Output) (bytes : ByteArray) : Option String × Output :=
  match o.room with
  | none => (none, { o with written := o.written ++ bytes })
  | some room =>
    let taken := bytes.extract 0 room
    (if bytes.size ≤ room then none else some o.fullReason,
      { o with written := o.written ++ taken, room := some (room - taken.size) })

end Output

structure Sender.JsonLines where
  out : Output := {}
  tags : Tags := .empty
  pending : List Point := []
deriving Inhabited

namespace Sender.JsonLines

def isPrintable : FieldValue → Bool
  | .float x => !(x.isNaN || x.isInf)
  | _ => true

/-- The point without the fields that cannot be printed, and with its own tags laid over the common ones. -/
def outgoing (common : Tags) (p : Point) : Point :=
  { p with
    fields := p.fields.filter (fun _ v => isPrintable v)
    tags := if common.isEmpty then p.tags else some (common.overlay (p.tags.getD .empty)) }

def drops (p : Point) : List Event :=
  p.fields.entries.filterMap fun e =>
    match e.2 with
    | .float x => if isPrintable e.2 then none else some (.fieldDropped p.measurement e.1 x)
    | _ => none

def put (text : String) (cause : String → Failure) : Action Sender.JsonLines Unit := do
  let s ← Action.get
  let (reason?, out) := s.out.put text.toUTF8
  Action.set { s with out }
  match reason? with
  | none => return ()
  | some reason => Action.fail (cause reason)

def writeLine [FloatFormat] (p : Point) : Action Sender.JsonLines Unit := do
  (drops p).forM Action.log
  put (outgoing (← Action.get).tags p).json .encodingStopped
  put "\n" .lineEndStopped

end Sender.JsonLines

instance [FloatFormat] : Sender Sender.JsonLines where
  useTags tags := Action.modify fun s => { s with tags }
  flush := Action.modify fun s => { s with pending := [] }
  append point := Action.modify fun s => { s with pending := s.pending ++ [point] }
  hasData := do return !(← Action.get).pending.isEmpty
  write := do
    let s ← Action.get
    Action.set { s with pending := [] }
    s.pending.forM Sender.JsonLines.writeLine
    match s.out.flushReason with
    | none => return ()
    | some reason => Action.fail (.outputNotFlushed reason)

end MetricReporting
