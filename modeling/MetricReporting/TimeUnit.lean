import MetricReporting.Failure

namespace MetricReporting

inductive TimeUnit
  | nanoseconds
  | microseconds
  | milliseconds
  | seconds
  | minutes
  | hours
  | days
deriving DecidableEq, Repr, Inhabited

namespace TimeUnit

def all : List TimeUnit := [nanoseconds, microseconds, milliseconds, seconds, minutes, hours, days]

def nanos : TimeUnit → Nat
  | nanoseconds => 1
  | microseconds => 1000
  | milliseconds => 1000000
  | seconds => 1000000000
  | minutes => 60000000000
  | hours => 3600000000000
  | days => 86400000000000

def name : TimeUnit → String
  | nanoseconds => "nanoseconds"
  | microseconds => "microseconds"
  | milliseconds => "milliseconds"
  | seconds => "seconds"
  | minutes => "minutes"
  | hours => "hours"
  | days => "days"

def spellings : TimeUnit → List String
  | nanoseconds => ["ns", "nanos", "nanosecond", "nanoseconds"]
  | microseconds => ["us", "micros", "microsecond", "microseconds"]
  | milliseconds => ["ms", "millis", "millisecond", "milliseconds"]
  | seconds => ["s", "sec", "secs", "second", "seconds"]
  | minutes => ["m", "min", "mins", "minute", "minutes"]
  | hours => ["h", "hour", "hours"]
  | days => ["d", "day", "days"]

def ofSpelling? (word : String) : Option TimeUnit := all.find? (·.spellings.contains word)

def parse (text : String) : Except Failure TimeUnit :=
  match ofSpelling? (Text.lower (Text.trim text)) with
  | some unit => .ok unit
  | none => .error (.unknownTimeUnit text)

theorem ofSpelling?_name (unit : TimeUnit) :
    ofSpelling? (Text.lower (Text.trim unit.name)) = some unit := by
  cases unit <;> decide +kernel

theorem parse_name (unit : TimeUnit) : parse unit.name = .ok unit := by
  simp [parse, ofSpelling?_name]

def toSeconds (unit : TimeUnit) : Float := Float.ofNat unit.nanos / 1e9

def perUnit (unit : TimeUnit) (perSecond : Float) : Float := perSecond * unit.toSeconds

def inUnits (unit : TimeUnit) (nanos : Float) : Float := nanos / Float.ofNat unit.nanos

end TimeUnit

end MetricReporting
