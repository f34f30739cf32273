import MetricReporting.Toml.Moment
import MetricReporting.Toml.Number
import MetricReporting.Toml.Value

namespace MetricReporting.Toml

def items (item : Reader Value) : Nat → Reader (List Value)
  | 0, _ => none
  | fuel + 1, cs =>
    match skipSpace cs with
    | ']' :: rest => some ([], rest)
    | cs => do
      let (first, rest) ← item cs
      match skipSpace rest with
      | ']' :: rest => return ([first], rest)
      | ',' :: rest =>
        let (others, rest) ← items item fuel rest
        return (first :: others, rest)
      | _ => none

def pair (item : Reader Value) (cs : List Char) : Option ((List String × String) × Value × List Char) := do
  let (key, rest) ← key cs
  let (value, rest) ← item (skipBlanks (← after '=' rest))
  return (key, value, rest)

def pairs (item : Reader Value) : Nat → Entries → Reader Entries
  | 0, _, _ => none
  | fuel + 1, entries, cs => do
    let ((path, key), value, rest) ← pair item cs
    let entries ← entries.define path key value
    match skipBlanks rest with
    | '\x7d' :: rest => return (entries, rest)
    | ',' :: rest => pairs item fuel entries rest
    | _ => none

def scalar (cs : List Char) : Option (Value × List Char) :=
  match cs with
  | 't' :: 'r' :: 'u' :: 'e' :: rest => some (.flag true, rest)
  | 'f' :: 'a' :: 'l' :: 's' :: 'e' :: rest => some (.flag false, rest)
  | c :: _ =>
    if c == '"' || c == '\'' then (string cs).map (fun p => (.text p.1, p.2))
    else
      match moment cs with
      | some (text, rest) => some (.moment text, rest)
      | none => (number cs).map (fun rest => (.number, rest))
  | [] => none

def value : Nat → Reader Value
  | 0, _ => none
  | levels + 1, cs =>
    match cs with
    | '[' :: rest =>
      if levels = 0 then none
      else (items (value levels) (rest.length + 1) rest).map (fun p => (.list p.1, p.2))
    | '\x7b' :: rest =>
      if levels = 0 then none
      else
        match skipBlanks rest with
        | '\x7d' :: rest => some (.table .braces [], rest)
        | rest => (pairs (value levels) (rest.length + 1) [] rest).map (fun p => (.table .braces p.1, p.2))
    | cs => scalar cs

structure Draft where
  root : Entries := []
  current : List String := []

namespace Draft

def readTable (d : Draft) (cs : List Char) : Option (Draft × List Char) := do
  let ((path, key), rest) ← key cs
  let rest ← finishLine (← after ']' rest)
  return ({ root := ← d.root.openTable path key, current := path ++ [key] }, rest)

def readElement (d : Draft) (cs : List Char) : Option (Draft × List Char) := do
  let ((path, key), rest) ← key cs
  let rest ← finishLine (← after ']' (← after ']' rest))
  return ({ root := ← d.root.openElement path key, current := path ++ [key] }, rest)

def readPair (d : Draft) (cs : List Char) : Option (Draft × List Char) := do
  let ((path, key), v, rest) ← pair (value depthLimit) cs
  let rest ← finishLine rest
  return ({ d with root := ← d.root.modifyAt (fun table => table.define path key v) d.current }, rest)

def readLines : Nat → Draft → List Char → Option Draft
  | 0, _, _ => none
  | fuel + 1, d, cs =>
    match skipBlanks cs with
    | [] => some d
    | '[' :: '[' :: rest => do
      let (d, rest) ← d.readElement rest
      readLines fuel d rest
    | '[' :: rest => do
      let (d, rest) ← d.readTable rest
      readLines fuel d rest
    | cs =>
      match finishLine cs with
      | some rest => readLines fuel d rest
      | none => do
        let (d, rest) ← d.readPair cs
        readLines fuel d rest

end Draft

def parse? (text : String) : Option Entries :=
  let cs := match text.toList with
    | '\ufeff' :: rest => rest
    | cs => cs
  (Draft.readLines (cs.length + 1) {} cs).map (·.root)

end MetricReporting.Toml
