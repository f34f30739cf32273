/-!
Decimal text of binary64 numbers. A positive finite number is `m * 2 ^ q`; the decimals that round to it fill an
interval around it, and `shortest` is the nearest of those with the fewest digits. All of it is exact
arithmetic on `Nat`.
-/
namespace MetricReporting.Decimal

structure Binary where
  significand : Nat
  exponent : Int
deriving DecidableEq, Repr

def Binary.ofBits (bits : UInt64) : Binary :=
  let fraction : Nat := bits.toNat % Nat.pow 2 52
  let biased : Nat := bits.toNat / Nat.pow 2 52 % Nat.pow 2 11
  if biased = 0 then ⟨fraction, -1074⟩ else ⟨Nat.pow 2 52 + fraction, (biased : Int) - 1075⟩

structure Ratio where
  num : Nat
  den : Nat
deriving DecidableEq, Repr

def Ratio.le (a b : Ratio) : Bool := a.num * b.den ≤ b.num * a.den

def Ratio.lt (a b : Ratio) : Bool := a.num * b.den < b.num * a.den

def power (n base : Nat) (e : Int) : Ratio :=
  if 0 ≤ e then ⟨n * Nat.pow base e.toNat, 1⟩ else ⟨n, Nat.pow base (-e).toNat⟩

structure Interval where
  low : Ratio
  high : Ratio
  closed : Bool
deriving DecidableEq, Repr

def Binary.interval (b : Binary) : Interval :=
  let below := if b.significand = Nat.pow 2 52 ∧ b.exponent ≠ -1074 then 1 else 2
  { low := power (4 * b.significand - below) 2 (b.exponent - 2)
    high := power (4 * b.significand + 2) 2 (b.exponent - 2)
    closed := b.significand % 2 = 0 }

def Interval.contains (i : Interval) (x : Ratio) : Bool :=
  if i.closed then i.low.le x && x.le i.high else i.low.lt x && x.lt i.high

def digitCount (n : Nat) : Nat := (Nat.toDigits 10 n).length

def magnitude (x : Ratio) : Int :=
  if x.den ≤ x.num then (digitCount (x.num / x.den) : Int) - 1
  else -(digitCount ((x.den + x.num - 1) / x.num - 1) : Int)

structure Digits where
  digits : Nat
  exponent : Int
deriving DecidableEq, Repr

def Digits.ratio (d : Digits) : Ratio := power d.digits 10 d.exponent

def neighbours (x : Ratio) (exponent : Int) : Digits × Digits :=
  let unit := power 1 10 exponent
  let below := x.num * unit.den / (x.den * unit.num)
  (⟨below, exponent⟩, ⟨below + 1, exponent⟩)

def nearer (x : Ratio) (below above : Digits) : Digits :=
  let b := below.ratio
  let a := above.ratio
  let toBelow := (x.num * b.den - b.num * x.den) * a.den
  let toAbove := (a.num * x.den - x.num * a.den) * b.den
  if toBelow < toAbove then below
  else if toAbove < toBelow then above
  else if below.digits % 2 = 0 then below else above

def onGrid? (x : Ratio) (i : Interval) (exponent : Int) : Option Digits :=
  let (below, above) := neighbours x exponent
  match i.contains below.ratio, i.contains above.ratio with
  | true, true => some (nearer x below above)
  | true, false => some below
  | false, true => some above
  | false, false => none

def Digits.trimmed : Nat → Digits → Digits
  | 0, d => d
  | fuel + 1, d =>
    if d.digits ≠ 0 ∧ d.digits % 10 = 0 then trimmed fuel ⟨d.digits / 10, d.exponent + 1⟩ else d

/-- The nearest of the decimals with the fewest digits that round to a positive binary number. -/
def shortest (b : Binary) : Digits :=
  let x := power b.significand 2 b.exponent
  let top := magnitude x
  let grids := (List.range 17).map (fun (n : Nat) => top - n)
  ((grids.findSome? (onGrid? x b.interval)).getD (neighbours x (top - 16)).1).trimmed 20

structure Layout where
  lowestPositional : Int
  highestPositional : Int

def Layout.render (layout : Layout) (d : Digits) : String :=
  let digits := toString d.digits
  let count := (digits.length : Int)
  let lead := d.exponent + count - 1
  if lead < layout.lowestPositional ∨ layout.highestPositional < lead then
    let mantissa :=
      if digits.length = 1 then digits
      else String.ofList (digits.toList.take 1) ++ "." ++ String.ofList (digits.toList.drop 1)
    mantissa ++ (if lead < 0 then "e-" else "e+") ++ toString lead.natAbs
  else if lead < 0 then
    "0." ++ String.ofList (List.replicate (-lead - 1).toNat '0') ++ digits
  else if 0 ≤ d.exponent then
    digits ++ String.ofList (List.replicate d.exponent.toNat '0') ++ ".0"
  else
    let whole := (lead + 1).toNat
    String.ofList (digits.toList.take whole) ++ "." ++ String.ofList (digits.toList.drop whole)

end MetricReporting.Decimal
