import MetricReporting.Action
import MetricReporting.NameMap
import MetricReporting.Word

namespace MetricReporting

structure IdleTable where
  counts : NameMap Int64 := .empty
deriving DecidableEq, Inhabited

namespace IdleTable

def get? (t : IdleTable) (name : String) : Option Int64 := t.counts.get? name

/-- How far a count is past the stored one: `-1` if none is stored, and `0` if it went backwards. -/
def progress (t : IdleTable) (name : String) (count : Int64) : Except Panic Int64 :=
  match t.get? name with
  | none => .ok (-1)
  | some previous => if count < previous then .ok 0 else Word.subtract count previous

def warnings (t : IdleTable) (name : String) (count : Int64) : List Event :=
  match t.get? name with
  | none => []
  | some previous => if count < previous then [.wentBackwards name previous count] else []

def isIdle (t : IdleTable) (name : String) (count : Int64) : Bool :=
  match t.progress name count with
  | .ok progress => progress == 0
  | .error _ => false

def skip (t : IdleTable) (name : String) (count : Int64) (suppress : Bool) : Bool × IdleTable :=
  if !suppress then (false, t)
  else if t.isIdle name count then (true, t)
  else (false, ⟨t.counts.insert name count⟩)

def measure (name : String) (count : Int64) : Action IdleTable Int64 := do
  let t ← Action.get
  (t.warnings name count).forM Action.log
  Action.orPanic (t.progress name count)

def consult (name : String) (count : Int64) (suppress : Bool) : Action IdleTable Bool := do
  let _ ← measure name count
  Action.modifyGet fun t => t.skip name count suppress

end IdleTable

end MetricReporting
