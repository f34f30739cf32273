import MetricReporting.Json.Text
/-!
Reading JSON straight into a wanted shape. A reader takes the characters to read and gives back those left over;
it stops at the first thing that is wrong, so what a text is refused for is what stands first in it.
-/
namespace MetricReporting

namespace Json

inductive Flaw
  | truncated
  | malformed
  | mismatched
deriving DecidableEq, Repr

abbrev Read (α : Type) := Except Flaw (α × List Char)

def isSpace (c : Char) : Bool := c == ' ' || c == '\n' || c == '\t' || c == '\r'

def skipSpace (cs : List Char) : List Char := cs.dropWhile isSpace

def afterWord : List Char → List Char → Except Flaw (List Char)
  | [], cs => .ok cs
  | _ :: _, [] => .error .truncated
  | w :: ws, c :: cs => if w = c then afterWord ws cs else .error .malformed

def hexValue? (c : Char) : Option Nat :=
  if '0' ≤ c && c ≤ '9' then some (c.toNat - '0'.toNat)
  else if 'a' ≤ c && c ≤ 'f' then some (c.toNat - 'a'.toNat + 10)
  else if 'A' ≤ c && c ≤ 'F' then some (c.toNat - 'A'.toNat + 10)
  else none

def hexWord? (a b c d : Char) : Option Nat := do
  return (((← hexValue? a) * 16 + (← hexValue? b)) * 16 + (← hexValue? c)) * 16 + (← hexValue? d)

def shortEscape (cs : List Char) : Flaw :=
  if (String.ofList cs).utf8ByteSize < 4 then .truncated else .malformed

def isHighSurrogate (n : Nat) : Bool := 0xD800 ≤ n && n ≤ 0xDBFF

def isLowSurrogate (n : Nat) : Bool := 0xDC00 ≤ n && n ≤ 0xDFFF

def simpleEscape? : Char → Option Char
  | '"' => some '"'
  | '\\' => some '\\'
  | '/' => some '/'
  | 'b' => some '\x08'
  | 'f' => some '\x0c'
  | 'n' => some '\n'
  | 'r' => some '\r'
  | 't' => some '\t'
  | _ => none

def prepend (c : Char) : Read (List Char) → Read (List Char)
  | .ok (cs, rest) => .ok (c :: cs, rest)
  | .error e => .error e

def stringChars : List Char → Read (List Char)
  | [] => .error .truncated
  | '"' :: rest => .ok ([], rest)
  | '\\' :: 'u' :: a :: b :: c :: d :: rest =>
    match hexWord? a b c d with
    | none => .error .malformed
    | some n =>
      if isLowSurrogate n then .error .malformed
      else if isHighSurrogate n then
        match rest with
        | '\\' :: 'u' :: e :: f :: g :: h :: after =>
          match hexWord? e f g h with
          | none => .error .malformed
          | some m =>
            if isLowSurrogate m then
              prepend (Char.ofNat (0x10000 + (n - 0xD800) * 0x400 + (m - 0xDC00))) (stringChars after)
            else .error .malformed
        | '\\' :: 'u' :: few => .error (shortEscape few)
        | ['\\'] => .error .truncated
        | [] => .error .truncated
        | _ => .error .malformed
      else prepend (Char.ofNat n) (stringChars rest)
  | '\\' :: 'u' :: few => .error (shortEscape few)
  | '\\' :: c :: rest =>
    match simpleEscape? c with
    | none => .error .malformed
    | some e => prepend e (stringChars rest)
  | ['\\'] => .error .truncated
  | c :: rest => if c.toNat < 32 then .error .malformed else prepend c (stringChars rest)

def afterString : List Char → Except Flaw (List Char)
  | [] => .error .truncated
  | '"' :: rest => .ok rest
  | '\\' :: 'u' :: a :: b :: c :: d :: rest =>
    match hexWord? a b c d with
    | none => .error .malformed
    | some _ => afterString rest
  | '\\' :: 'u' :: few => .error (shortEscape few)
  | '\\' :: c :: rest =>
    match simpleEscape? c with
    | none => .error .malformed
    | some _ => afterString rest
  | ['\\'] => .error .truncated
  | c :: rest => if c.toNat < 32 then .error .malformed else afterString rest

structure Numeral where
  negative : Bool
  whole : List Char
  fraction : Option (List Char)
  exponent : Option Int
deriving DecidableEq, Repr

def digitValue (c : Char) : Nat := c.toNat - '0'.toNat

def natOfDigits (ds : List Char) : Nat := ds.foldl (fun n c => n * 10 + digitValue c) 0

def digits (cs : List Char) : Read (List Char) :=
  match cs with
  | [] => .error .truncated
  | c :: _ => if c.isDigit then .ok (cs.takeWhile Char.isDigit, cs.dropWhile Char.isDigit) else .error .malformed

def fractionPart (cs : List Char) : Read (Option (List Char)) :=
  match cs with
  | '.' :: rest => (digits rest).map (fun p => (some p.1, p.2))
  | _ => .ok (none, cs)

def exponentPart (cs : List Char) : Read (Option Int) :=
  match cs with
  | c :: rest =>
    if c == 'e' || c == 'E' then
      match rest with
      | '-' :: after => (digits after).map (fun p => (some (-(natOfDigits p.1 : Int)), p.2))
      | '+' :: after => (digits after).map (fun p => (some (natOfDigits p.1 : Int), p.2))
      | after => (digits after).map (fun p => (some (natOfDigits p.1 : Int), p.2))
    else .ok (none, cs)
  | [] => .ok (none, cs)

def numeral (negative : Bool) (cs : List Char) : Except Flaw (Numeral × List Char) := do
  let (whole, rest) ← digits cs
  if whole.head? == some '0' && 1 < whole.length then .error .malformed
  let (fraction, rest) ← fractionPart rest
  let (exponent, rest) ← exponentPart rest
  return (⟨negative, whole, fraction, exponent⟩, rest)

inductive Number
  | integer (n : Int)
  | float (x : Float)

def takeIn : Nat → List Char → Nat × Nat
  | n, [] => (n, 0)
  | n, c :: rest =>
    if n * 10 + digitValue c < Nat.pow 2 64 then takeIn (n * 10 + digitValue c) rest else (n, rest.length + 1)

def powerOfTen (n : Nat) : Float := Float.ofScientific 1 false n

def dividePower (x : Float) (n : Nat) : Float :=
  if n ≤ 308 then x / powerOfTen n
  else if x == 0 then x
  else dividePower (x / powerOfTen 308) (n - 308)
termination_by n

def scale (n : Nat) (exponent : Int) : Except Flaw Float :=
  let x := n.toUInt64.toFloat
  if exponent < 0 then .ok (dividePower x exponent.natAbs)
  else if exponent ≤ 308 then
    let y := x * powerOfTen exponent.toNat
    if y.isInf then .error .malformed else .ok y
  else if n = 0 then .ok x
  else .error .malformed

end Json

/-- What writes floats, and what makes one of digits that fit in 64 bits and an exponent. -/
class FloatFormat where
  text : Float → String
  scale : Nat → Int → Except Json.Flaw Float

instance : FloatFormat where
  text := Json.numberText
  scale := Json.scale

namespace Json

variable [FloatFormat]

/-- The value of a number. Without a fraction and an exponent it is an integer if it fits and is not `-0`. Else
it is a float made of the leading digits that fit in 64 bits. -/
def Numeral.value (t : Numeral) : Except Flaw Number := do
  let (n, wholeLeft) := takeIn 0 t.whole
  if t.fraction.isNone && t.exponent.isNone && wholeLeft == 0 then
    if !t.negative then return .integer n
    else if 0 < n && n ≤ Nat.pow 2 63 then return .integer (-n)
  let fraction := t.fraction.getD []
  let (n, fractionLeft) := takeIn n fraction
  let shift : Int := (wholeLeft : Int) - ((fraction.length - fractionLeft : Nat) : Int) + t.exponent.getD 0
  let x ← FloatFormat.scale n shift
  return .float (if t.negative then -x else x)

def number (negative : Bool) (cs : List Char) : Except Flaw (Number × List Char) := do
  let (t, rest) ← numeral negative cs
  return (← t.value, rest)

def refusal (cs : List Char) : Flaw :=
  match cs with
  | [] => .malformed
  | 'n' :: rest => flawOr (afterWord ['u', 'l', 'l'] rest)
  | 't' :: rest => flawOr (afterWord ['r', 'u', 'e'] rest)
  | 'f' :: rest => flawOr (afterWord ['a', 'l', 's', 'e'] rest)
  | '-' :: rest => flawOr (number true rest)
  | '"' :: rest => flawOr (stringChars rest)
  | '[' :: _ => .mismatched
  | '\x7b' :: _ => .mismatched
  | c :: _ => if c.isDigit then flawOr (number false cs) else .malformed
where
  flawOr {α : Type} : Except Flaw α → Flaw
    | .ok _ => .mismatched
    | .error e => e

def string (cs : List Char) : Read String :=
  match skipSpace cs with
  | [] => .error .truncated
  | '"' :: rest => (stringChars rest).map (fun p => (String.ofList p.1, p.2))
  | other => .error (refusal other)

inductive Bracket
  | list
  | object
deriving DecidableEq, Repr

structure Strictness where
  valued : Bool
  depth : Option Nat

def afterNumeral (negative : Bool) (cs : List Char) : Except Flaw (List Char) :=
  match numeral negative cs with
  | .ok (_, rest) => .ok rest
  | .error _ => .error .malformed

def afterScalar (valued : Bool) (cs : List Char) : Except Flaw (List Char) :=
  match cs with
  | [] => .error .truncated
  | 'n' :: rest => afterWord ['u', 'l', 'l'] rest
  | 't' :: rest => afterWord ['r', 'u', 'e'] rest
  | 'f' :: rest => afterWord ['a', 'l', 's', 'e'] rest
  | '"' :: rest => if valued then (stringChars rest).map (·.2) else afterString rest
  | '-' :: rest => if valued then (number true rest).map (·.2) else afterNumeral true rest
  | c :: _ =>
    if c.isDigit then
      if valued then (number false cs).map (·.2) else afterNumeral false cs
    else .error .malformed

def afterKey (valued : Bool) (cs : List Char) : Except Flaw (List Char) :=
  match skipSpace cs with
  | [] => .error .truncated
  | '"' :: rest => do
    let rest ← if valued then (stringChars rest).map (·.2) else afterString rest
    match skipSpace rest with
    | [] => .error .truncated
    | ':' :: rest => return rest
    | _ => .error .malformed
  | _ => .error .malformed

mutual

def afterValue (strict : Strictness) : Nat → List Bracket → List Char → Except Flaw (List Char)
  | 0, _, _ => .error .malformed
  | fuel + 1, stack, cs =>
    match skipSpace cs with
    | '[' :: rest =>
      if strict.depth.any (· ≤ stack.length + 1) then .error .malformed
      else
        match skipSpace rest with
        | ']' :: rest => afterClosed strict fuel stack rest
        | [] => .error .truncated
        | rest => afterValue strict fuel (.list :: stack) rest
    | '\x7b' :: rest =>
      if strict.depth.any (· ≤ stack.length + 1) then .error .malformed
      else
        match skipSpace rest with
        | '\x7d' :: rest => afterClosed strict fuel stack rest
        | rest => do afterValue strict fuel (.object :: stack) (← afterKey strict.valued rest)
    | scalar => do afterClosed strict fuel stack (← afterScalar strict.valued scalar)

def afterClosed (strict : Strictness) : Nat → List Bracket → List Char → Except Flaw (List Char)
  | _, [], cs => .ok cs
  | 0, _, _ => .error .malformed
  | fuel + 1, bracket :: stack, cs =>
    match bracket, skipSpace cs with
    | _, [] => .error .truncated
    | .list, ',' :: rest => afterValue strict fuel (.list :: stack) rest
    | .list, ']' :: rest => afterClosed strict fuel stack rest
    | .object, ',' :: rest => do afterValue strict fuel (.object :: stack) (← afterKey strict.valued rest)
    | .object, '\x7d' :: rest => afterClosed strict fuel stack rest
    | _, _ => .error .malformed

end

def skip (strict : Strictness) (cs : List Char) : Except Flaw (List Char) :=
  afterValue strict (2 * cs.length + 2) [] cs

inductive Member
  | close (rest : List Char)
  | key (name : String) (rest : List Char)

def nextKey (first : Bool) (cs : List Char) : Except Flaw Member :=
  match skipSpace cs with
  | [] => .error .truncated
  | '\x7d' :: rest => .ok (.close rest)
  | other =>
    if first then keyOf other
    else
      match other with
      | ',' :: rest =>
        match skipSpace rest with
        | [] => .error .truncated
        | after => keyOf after
      | _ => .error .malformed
where
  keyOf : List Char → Except Flaw Member
    | '"' :: rest => (stringChars rest).map (fun p => .key (String.ofList p.1) p.2)
    | _ => .error .malformed

def afterColon (cs : List Char) : Except Flaw (List Char) :=
  match skipSpace cs with
  | [] => .error .truncated
  | ':' :: rest => .ok rest
  | _ => .error .malformed

def members {α : Type} (value : List Char → Read α) :
    Nat → Bool → List Char → Except Flaw (List (String × α) × List Char)
  | 0, _, _ => .error .malformed
  | fuel + 1, first, cs => do
    match ← nextKey first cs with
    | .close rest => return ([], rest)
    | .key name rest =>
      let (v, rest) ← value (← afterColon rest)
      let (others, rest) ← members value fuel false rest
      return ((name, v) :: others, rest)

def object {α : Type} (value : List Char → Read α) (cs : List Char) : Read (List (String × α)) :=
  match skipSpace cs with
  | [] => .error .truncated
  | '\x7b' :: rest => members value (rest.length + 1) true rest
  | other => .error (refusal other)

def optional {α : Type} (value : List Char → Read α) (cs : List Char) : Read (Option α) :=
  match skipSpace cs with
  | 'n' :: rest => (afterWord ['u', 'l', 'l'] rest).map (fun rest => (none, rest))
  | other => (value other).map (fun p => (some p.1, p.2))

def document {α : Type} (value : List Char → Read α) (text : String) : Except Flaw α := do
  let (v, rest) ← value text.toList
  if (skipSpace rest).isEmpty then return v else .error .malformed

end Json

end MetricReporting
