import MetricReporting.Toml.Lexical
/-!
Dates and times of TOML: a date, a time of day, or a date with a time and perhaps an offset. Reading gives their
canonical text, in which a `T` stands before the time and no zeros stand at the end of a fraction.
-/
namespace MetricReporting.Toml

def fixedDigits (count low high : Nat) (cs : List Char) : Option (Nat × List Char) :=
  let ds := cs.take count
  let n := ds.foldl (fun n c => n * 10 + (c.toNat - '0'.toNat)) 0
  if ds.length = count ∧ ds.all Char.isDigit ∧ low ≤ n ∧ n ≤ high then some (n, cs.drop count) else none

def after (c : Char) : List Char → Option (List Char)
  | [] => none
  | d :: rest => if d == c then some rest else none

def padded (width n : Nat) : String :=
  let ds := (toString n).toList
  String.ofList (List.replicate (width - ds.length) '0' ++ ds)

def isLeap (year : Nat) : Bool := year % 4 == 0 && (year % 100 != 0 || year % 400 == 0)

def daysIn (year month : Nat) : Nat :=
  if month = 2 then if isLeap year then 29 else 28
  else if month ∈ [4, 6, 9, 11] then 30 else 31

def date (cs : List Char) : Option (String × List Char) := do
  let (year, cs) ← fixedDigits 4 0 9999 cs
  let (month, cs) ← fixedDigits 2 1 12 (← after '-' cs)
  let (day, cs) ← fixedDigits 2 1 31 (← after '-' cs)
  if daysIn year month < day then none
  else return (padded 4 year ++ "-" ++ padded 2 month ++ "-" ++ padded 2 day, cs)

def secondFraction : List Char → String × List Char
  | '.' :: rest =>
    match rest.takeWhile Char.isDigit with
    | [] => ("", '.' :: rest)
    | ds =>
      let kept := ((ds.take 9).reverse.dropWhile (· == '0')).reverse
      (if kept.isEmpty then "" else "." ++ String.ofList kept, rest.dropWhile Char.isDigit)
  | cs => ("", cs)

def timeOfDay (cs : List Char) : Option (String × List Char) := do
  let (hour, cs) ← fixedDigits 2 0 23 cs
  let (minute, cs) ← fixedDigits 2 0 59 (← after ':' cs)
  let (second, cs) ← fixedDigits 2 0 60 (← after ':' cs)
  let (fraction, cs) := secondFraction cs
  return (padded 2 hour ++ ":" ++ padded 2 minute ++ ":" ++ padded 2 second ++ fraction, cs)

def numericOffset (sign : String) (cs : List Char) : Option (String × List Char) := do
  let (hour, cs) ← fixedDigits 2 0 23 cs
  let (minute, cs) ← fixedDigits 2 0 59 (← after ':' cs)
  let sign := if hour = 0 ∧ minute = 0 then "+" else sign
  return (sign ++ padded 2 hour ++ ":" ++ padded 2 minute, cs)

def offset : Reader String
  | c :: rest =>
    if c == 'Z' || c == 'z' then some ("Z", rest)
    else if c == '+' then numericOffset "+" rest
    else if c == '-' then numericOffset "-" rest
    else none
  | [] => none

def timeAfterDate (date : String) (cs : List Char) : String × List Char :=
  match cs with
  | c :: rest =>
    if c == 'T' || c == 't' || c == ' ' then
      match timeOfDay rest with
      | none => (date, cs)
      | some (time, rest) =>
        match offset rest with
        | none => (date ++ "T" ++ time, rest)
        | some (zone, rest) => (date ++ "T" ++ time ++ zone, rest)
    else (date, cs)
  | [] => (date, [])

def moment (cs : List Char) : Option (String × List Char) :=
  match date cs with
  | some (date, rest) => some (timeAfterDate date rest)
  | none => timeOfDay cs

end MetricReporting.Toml
