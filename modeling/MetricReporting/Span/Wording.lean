import MetricReporting.Span
import MetricReporting.Text
/-!
Lengths of time in words, such as `1h 30m` or `1.5s`: amounts, each followed by its unit, added up.

Reading goes through the characters once (`Reading.step`), and every amount and sum has to stay within 64 bits.
-/
namespace MetricReporting

namespace Span

inductive Flaw
  | empty
  | numberExpected (offset : Nat)
  | strayCharacter (offset : Nat)
  | unknownUnit (unit : String) (amount : Nat)
  | outOfRange
  | secondsExhausted
deriving DecidableEq, Repr

def Flaw.message : Flaw → String
  | empty => "value was empty"
  | numberExpected offset => s!"expected number at {offset}"
  | strayCharacter offset => s!"invalid character at {offset}"
  | unknownUnit unit amount =>
    if unit.isEmpty then s!"time unit needed, for example {amount}sec or {amount}ms"
    else s!"unknown time unit \"{unit}\", supported units: ns, us/µs, ms, sec, min, hours, days, " ++
      "weeks, months, years (and few variations)"
  | outOfRange => "number is too large or cannot be represented without a lack of precision " ++
      "(values below 1ns are not supported)"
  | secondsExhausted => "overflow in Duration::new"

inductive Measure
  | seconds (n : Nat)
  | nanos (n : Nat)
deriving DecidableEq, Repr

structure WordUnit where
  whole : Measure
  parts : Option Measure
  spellings : List String

def wordUnits : List WordUnit :=
  [⟨.nanos 1, none, ["nanos", "nsec", "ns"]⟩,
    ⟨.nanos 1000, some (.nanos 1000), ["usec", "us", "µs"]⟩,
    ⟨.nanos 1000000, some (.nanos 1000000), ["millis", "msec", "ms"]⟩,
    ⟨.seconds 1, some (.nanos 1000000000), ["seconds", "second", "secs", "sec", "s"]⟩,
    ⟨.seconds 60, some (.nanos 60000000000), ["minutes", "minute", "min", "mins", "m"]⟩,
    ⟨.seconds 3600, some (.seconds 3600), ["hours", "hour", "hrs", "hr", "h"]⟩,
    ⟨.seconds 86400, some (.seconds 86400), ["days", "day", "d"]⟩,
    ⟨.seconds 604800, some (.seconds 604800), ["weeks", "week", "wks", "wk", "w"]⟩,
    ⟨.seconds 2630016, some (.seconds 2630016), ["months", "month", "M"]⟩,
    ⟨.seconds 31557600, some (.seconds 31557600), ["years", "year", "yrs", "yr", "y"]⟩]

def word (n : Nat) : Except Flaw Nat :=
  if n < Nat.pow 2 64 then .ok n else .error .outOfRange

def plus (total : Span) (seconds nanos : Nat) : Except Flaw Span := do
  let below ← word (total.subsecondNanos + nanos)
  let carried := if 1000000000 < below then below / 1000000000 else 0
  let _ ← word (total.seconds + seconds + carried)
  let sum := total.nanos + seconds * 1000000000 + nanos
  if sum < Nat.pow 2 64 * 1000000000 then .ok ⟨sum⟩ else .error .secondsExhausted

structure Amount where
  whole : Nat
  numerator : Nat
  denominator : Nat
deriving DecidableEq, Repr

def Measure.times (m : Measure) (n denominator : Nat) : Except Flaw (Nat × Nat) := do
  match m with
  | .seconds k => return (← share (← word (n * k)), 0)
  | .nanos k => return (0, ← share (← word (n * k)))
where
  share (product : Nat) : Except Flaw Nat :=
    if product % denominator = 0 then .ok (product / denominator) else .error .outOfRange

def plusAmount (total : Span) (amount : Amount) (unit : String) : Except Flaw Span := do
  match wordUnits.find? (·.spellings.contains unit) with
  | none => .error (.unknownUnit unit amount.whole)
  | some u =>
    let (s, n) ← u.whole.times amount.whole 1
    let total ← plus total s n
    if amount.denominator = 1 then return total
    match u.parts with
    | none => .error .outOfRange
    | some parts =>
      let (s, n) ← parts.times amount.numerator amount.denominator
      plus total s n

inductive Stage
  | between (started : Bool) (since : Nat)
  | whole (n : Nat)
  | fraction (amount : Amount) (point : Option Nat)
  | unit (amount : Amount) (letters : List Char)
deriving DecidableEq, Repr

structure Reading where
  total : Span := zero
  stage : Stage := .between false 0
deriving DecidableEq, Repr

def isUnitLetter (c : Char) : Bool := c.isAlpha || c == 'µ'

def digitValue (c : Char) : Nat := c.toNat - '0'.toNat

namespace Reading

def step (r : Reading) (next : Nat × Char) : Except Flaw Reading := do
  let (offset, c) := next
  match r.stage with
  | .between _ since =>
    if c.isDigit then return { r with stage := .whole (digitValue c) }
    else if Text.isBlank c then return r
    else .error (.numberExpected since)
  | .whole n =>
    if c.isDigit then return { r with stage := .whole (← word (n * 10 + digitValue c)) }
    else if Text.isBlank c then return r
    else if isUnitLetter c then return { r with stage := .unit ⟨n, 0, 1⟩ [c] }
    else if c == '.' then return { r with stage := .fraction ⟨n, 0, 1⟩ (some offset) }
    else .error (.strayCharacter offset)
  | .fraction amount point =>
    if c.isDigit then
      let denominator ← word (amount.denominator * 10)
      let numerator ← word (amount.numerator * 10 + digitValue c)
      return { r with stage := .fraction ⟨amount.whole, numerator, denominator⟩ none }
    else if Text.isBlank c then return { r with stage := .fraction amount none }
    else if isUnitLetter c && amount.denominator != 1 then
      return { r with stage := .unit amount [c] }
    else .error (.strayCharacter (point.getD offset))
  | .unit amount letters =>
    if c.isDigit then
      return ⟨← plusAmount r.total amount (String.ofList letters), .whole (digitValue c)⟩
    else if Text.isBlank c then
      return ⟨← plusAmount r.total amount (String.ofList letters), .between true (offset + c.utf8Size)⟩
    else if isUnitLetter c then return { r with stage := .unit amount (letters ++ [c]) }
    else .error (.strayCharacter offset)

def finish (r : Reading) (offset : Nat) : Except Flaw Span :=
  match r.stage with
  | .between started _ => if started then .ok r.total else .error .empty
  | .whole n => plusAmount r.total ⟨n, 0, 1⟩ ""
  | .fraction amount point =>
    if amount.denominator = 1 then .error (.strayCharacter (point.getD offset))
    else plusAmount r.total amount ""
  | .unit amount letters => plusAmount r.total amount (String.ofList letters)

end Reading

def withOffsets (offset : Nat) : List Char → List (Nat × Char)
  | [] => []
  | c :: rest => (offset, c) :: withOffsets (offset + c.utf8Size) rest

def parse (text : String) : Except Flaw Span := do
  if text = "0" then return zero
  let r ← (withOffsets 0 text.toList).foldlM Reading.step {}
  r.finish text.utf8ByteSize

def render (s : Span) : String :=
  if s.isZero then "0s"
  else
    let years := s.seconds / 31557600
    let inYear := s.seconds % 31557600
    let months := inYear / 2630016
    let inMonth := inYear % 2630016
    let days := inMonth / 86400
    let inDay := inMonth % 86400
    let part := s.subsecondNanos
    let plural (n : Nat) (unit : String) : Nat × String := (n, if n = 1 then unit else unit ++ "s")
    let items := [plural years "year", plural months "month", plural days "day",
      (inDay / 3600, "h"), (inDay % 3600 / 60, "m"), (inDay % 60, "s"),
      (part / 1000000, "ms"), (part / 1000 % 1000, "us"), (part % 1000, "ns")]
    " ".intercalate ((items.filter (fun item => 0 < item.1)).map (fun item => toString item.1 ++ item.2))

end Span

/-- What reads lengths of time in words and writes them. -/
class SpanWords where
  parse : String → Except Span.Flaw Span
  render : Span → String

instance : SpanWords where
  parse := Span.parse
  render := Span.render

end MetricReporting
