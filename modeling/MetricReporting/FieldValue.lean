import MetricReporting.Json.Reader

namespace MetricReporting

inductive FieldValue
  | integer (n : Int64)
  | float (x : Float)
  | text (s : String)
  | flag (b : Bool)
deriving Inhabited

namespace FieldValue

variable [FloatFormat]

def toFloat? : FieldValue → Option Float
  | integer n => some n.toFloat
  | float x => some x
  | text _ | flag _ => none

def toInteger? : FieldValue → Option Int64
  | integer n => some n
  | _ => none

def json : FieldValue → String
  | integer n => toString n.toInt
  | float x => FloatFormat.text x
  | text s => Json.quote s
  | flag b => if b then "true" else "false"

def ofNumber : Json.Number → FieldValue
  | .integer n => if n ≤ Int64.maxValue.toInt then integer (Int64.ofInt n) else float n.toNat.toUInt64.toFloat
  | .float x => float x

def read (depth : Nat) (cs : List Char) : Json.Read FieldValue :=
  match Json.skipSpace cs with
  | [] => .error .truncated
  | '"' :: rest => (Json.stringChars rest).map (fun p => (text (String.ofList p.1), p.2))
  | 't' :: rest => (Json.afterWord ['r', 'u', 'e'] rest).map (fun rest => (flag true, rest))
  | 'f' :: rest => (Json.afterWord ['a', 'l', 's', 'e'] rest).map (fun rest => (flag false, rest))
  | '-' :: rest => (Json.number true rest).map (fun p => (ofNumber p.1, p.2))
  | other =>
    if other.head?.any Char.isDigit then
      (Json.number false other).map (fun p => (ofNumber p.1, p.2))
    else
      match Json.skip ⟨true, some depth⟩ other with
      | .ok _ => .error .mismatched
      | .error e => .error e

def nestingLimit : Nat := 128

def parse (text : String) : Except Json.Flaw FieldValue := Json.document (read nestingLimit) text

end FieldValue

end MetricReporting
