import MetricReporting.Toml.Lexical

namespace MetricReporting.Toml

def moreDigits (isDigit : Char → Bool) : Reader (List Char)
  | '_' :: c :: rest =>
    if isDigit c then (moreDigits isDigit rest).map (fun p => (c :: p.1, p.2)) else none
  | ['_'] => none
  | c :: rest =>
    if isDigit c then (moreDigits isDigit rest).map (fun p => (c :: p.1, p.2)) else some ([], c :: rest)
  | [] => some ([], [])

def digits (isDigit : Char → Bool) : Reader (List Char)
  | [] => none
  | c :: rest =>
    if isDigit c then (moreDigits isDigit rest).map (fun p => (c :: p.1, p.2)) else none

def wholeDigits : Reader (List Char)
  | '0' :: rest => some (['0'], rest)
  | cs => digits Char.isDigit cs

def natOfDigits (base : Nat) (ds : List Char) : Nat :=
  ds.foldl (fun n c => n * base + (hexValue? c).getD 0) 0

def basedInteger (base : Nat) (cs : List Char) : Option (List Char) := do
  let (ds, rest) ← digits (fun c => (hexValue? c).any (· < base)) cs
  if natOfDigits base ds < Nat.pow 2 63 then some rest else none

def overflows (m : Nat) (e : Int) : Bool :=
  let limit := Nat.pow 2 1024 - Nat.pow 2 970
  let places : Int := (Nat.toDigits 10 m).length + e
  if m = 0 ∨ places < 309 then false
  else if 309 < places then true
  else if 0 ≤ e then decide (limit ≤ m * Nat.pow 10 e.toNat)
  else decide (limit * Nat.pow 10 e.natAbs ≤ m)

def fraction : Reader (Option (List Char))
  | '.' :: rest => (digits Char.isDigit rest).map (fun p => (some p.1, p.2))
  | cs => some (none, cs)

def exponent : Reader (Option Int)
  | c :: rest =>
    if c == 'e' || c == 'E' then
      let (negative, rest) := match rest with
        | '-' :: rest => (true, rest)
        | '+' :: rest => (false, rest)
        | rest => (false, rest)
      (digits Char.isDigit rest).map fun p =>
        let n : Int := natOfDigits 10 p.1
        (some (if negative then -n else n), p.2)
    else some (none, c :: rest)
  | [] => some (none, [])

def decimal (negative : Bool) (cs : List Char) : Option (List Char) := do
  let (whole, rest) ← wholeDigits cs
  let (part, rest) ← fraction rest
  let (power, rest) ← exponent rest
  if part.isNone && power.isNone then
    let n := natOfDigits 10 whole
    if n < Nat.pow 2 63 || (negative && n == Nat.pow 2 63) then some rest else none
  else
    let part := part.getD []
    let shift : Int := power.getD 0 - part.length
    if !negative && overflows (natOfDigits 10 (whole ++ part)) shift then none else some rest

def signed (negative : Bool) : List Char → Option (List Char)
  | 'i' :: 'n' :: 'f' :: rest => some rest
  | 'n' :: 'a' :: 'n' :: rest => some rest
  | cs => decimal negative cs

def number : List Char → Option (List Char)
  | '+' :: rest => signed false rest
  | '-' :: rest => signed true rest
  | '0' :: 'x' :: rest => basedInteger 16 rest
  | '0' :: 'o' :: rest => basedInteger 8 rest
  | '0' :: 'b' :: rest => basedInteger 2 rest
  | cs => signed false cs

end MetricReporting.Toml
