namespace MetricReporting

structure Span where
  nanos : Nat
deriving DecidableEq, Inhabited, Repr

namespace Span

def zero : Span := ⟨0⟩

def ofNanos (n : Nat) : Span := ⟨n⟩

def ofMicros (n : Nat) : Span := ⟨n * 1000⟩

def ofMillis (n : Nat) : Span := ⟨n * 1000000⟩

def ofSeconds (n : Nat) : Span := ⟨n * 1000000000⟩

def isZero (s : Span) : Bool := s.nanos == 0

def seconds (s : Span) : Nat := s.nanos / 1000000000

def subsecondNanos (s : Span) : Nat := s.nanos % 1000000000

def fractionDigits (part places : Nat) : List Char :=
  let digits := (toString part).toList
  let padded := List.replicate (places - digits.length) '0' ++ digits
  (padded.reverse.dropWhile (· == '0')).reverse

def decimal (whole part places : Nat) : String :=
  if part = 0 then toString whole
  else toString whole ++ "." ++ String.ofList (fractionDigits part places)

def brief (s : Span) : String :=
  let part := s.subsecondNanos
  if 0 < s.seconds then decimal s.seconds part 9 ++ "s"
  else if 1000000 ≤ part then decimal (part / 1000000) (part % 1000000) 6 ++ "ms"
  else if 1000 ≤ part then decimal (part / 1000) (part % 1000) 3 ++ "µs"
  else toString part ++ "ns"

end Span

end MetricReporting
