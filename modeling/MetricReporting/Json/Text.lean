import MetricReporting.Decimal

namespace MetricReporting.Json

def hexDigit (n : Nat) : Char := Nat.digitChar (n % 16)

def escaped (c : Char) : List Char :=
  if c = '"' then ['\\', '"']
  else if c = '\\' then ['\\', '\\']
  else if c = '\n' then ['\\', 'n']
  else if c = '\r' then ['\\', 'r']
  else if c = '\t' then ['\\', 't']
  else if c = '\x08' then ['\\', 'b']
  else if c = '\x0c' then ['\\', 'f']
  else if c.toNat < 32 then ['\\', 'u', '0', '0', hexDigit (c.toNat / 16), hexDigit c.toNat]
  else [c]

def quote (s : String) : String := String.ofList ('"' :: s.toList.flatMap escaped ++ ['"'])

def numberLayout : Decimal.Layout := ⟨-5, 15⟩

/-- The shortest decimal that reads back as the number, always with a point or an exponent. There is no text
for what is not finite, so that is `null`. -/
def numberText (x : Float) : String :=
  if x.isNaN || x.isInf then "null"
  else
    let sign := if x.toBits.toNat < Nat.pow 2 63 then "" else "-"
    let b := Decimal.Binary.ofBits x.toBits
    if b.significand = 0 then sign ++ "0.0" else sign ++ numberLayout.render (Decimal.shortest b)

def objectText (members : List (String × String)) : String :=
  "\x7b" ++ ",".intercalate (members.map (fun m => quote m.1 ++ ":" ++ m.2)) ++ "\x7d"

end MetricReporting.Json
