import MetricReporting.Toml.Document

namespace MetricReporting

namespace Toml

def longestRun (c : Char) (cs : List Char) : Nat :=
  (cs.foldl (fun (longest, run) d =>
    let run := if d == c then run + 1 else 0
    (max longest run, run)) (0, 0)).1

def needsCode (cs : List Char) : Bool :=
  cs.any fun c => (c.toNat < 0x20 && c != '\t' && c != '\n') || c == '\x7f'

def hexCode (c : Char) : List Char :=
  let digit (n : Nat) : Char := (Nat.digitChar n).toUpper
  ['\\', 'u', '0', '0', digit (c.toNat / 16), digit (c.toNat % 16)]

def escaped (lines : Bool) (c : Char) : List Char :=
  if c == '\x08' then ['\\', 'b']
  else if c == '\t' then ['\\', 't']
  else if c == '\n' then if lines then [c] else ['\\', 'n']
  else if c == '\x0c' then ['\\', 'f']
  else if c == '\r' then ['\\', 'r']
  else if c == '\\' then ['\\', '\\']
  else if c.toNat < 0x20 || c == '\x7f' then hexCode c
  else [c]

/-- Text within double quotes. On several lines two quotes in a row stay as they are; `free` is how many of them
may still follow. -/
def escapedText (lines : Bool) : Nat → List Char → List Char
  | _, [] => []
  | free, c :: rest =>
    let most := if lines then 2 else 0
    if c == '"' then
      match free with
      | 0 => '\\' :: '"' :: escapedText lines most rest
      | free + 1 => '"' :: escapedText lines free rest
    else escaped lines c ++ escapedText lines most rest

inductive Quoting
  | basic
  | literal
  | basicLines
  | literalLines
deriving DecidableEq, Repr

def Quoting.holds (cs : List Char) : Quoting → Bool
  | basic => !needsCode cs && !cs.contains '\\' && !cs.contains '"' && !cs.contains '\n'
  | literal => !needsCode cs && !cs.contains '\'' && !cs.contains '\n'
  | basicLines => !needsCode cs && !cs.contains '\\' && longestRun '"' cs ≤ 2
  | literalLines => !needsCode cs && longestRun '\'' cs ≤ 2

def Quoting.of (cs : List Char) : Quoting :=
  ([basic, literal, basicLines, literalLines].find? (·.holds cs)).getD
    (if cs.contains '\n' then basicLines else basic)

def Quoting.write (cs : List Char) : Quoting → List Char
  | basic => ['"'] ++ escapedText false 0 cs ++ ['"']
  | literal => ['\''] ++ cs ++ ['\'']
  | basicLines => ['"', '"', '"'] ++ opening ++ escapedText true 2 cs ++ ['"', '"', '"']
  | literalLines => ['\'', '\'', '\''] ++ opening ++ cs ++ ['\'', '\'', '\'']
where
  opening : List Char := if cs.contains '\n' then ['\n'] else []

def writeString (s : String) : String :=
  String.ofList ((Quoting.of s.toList).write s.toList)

def writeKey (s : String) : String :=
  let cs := s.toList
  if !cs.isEmpty && cs.all isBareKeyChar then s
  else if Quoting.basic.holds cs then String.ofList (Quoting.basic.write cs)
  else if Quoting.literal.holds cs then String.ofList (Quoting.literal.write cs)
  else String.ofList (Quoting.basic.write cs)

def writeList (texts : List String) : String := "[" ++ ", ".intercalate (texts.map writeString) ++ "]"

def writeSpreadList (texts : List String) : String :=
  if texts.length ≤ 1 then writeList texts
  else "[\n" ++ String.join (texts.map fun t => "    " ++ writeString t ++ ",\n") ++ "]"

inductive Plain
  | text (s : String)
  | flag (b : Bool)
  | texts (items : List String)

def Plain.write (list : List String → String) : Plain → String
  | text s => writeString s
  | flag b => if b then "true" else "false"
  | texts items => list items

structure Sheet where
  settings : List (String × Plain)
  table : String
  rows : List (String × String)

def writePair (key value : String) : String := writeKey key ++ " = " ++ value ++ "\n"

def Sheet.write (list : List String → String) (s : Sheet) : String :=
  String.join (s.settings.map fun e => writePair e.1 (e.2.write list)) ++ "\n[" ++ writeKey s.table ++ "]\n" ++
    String.join (s.rows.map fun e => writePair e.1 (writeString e.2))

end Toml

/-- What reads documents and writes them, with every list on a line of its own or spread over several. -/
class TomlFormat where
  parse? : String → Option Toml.Entries
  write : Toml.Sheet → String
  writeSpread : Toml.Sheet → String

instance : TomlFormat where
  parse? := Toml.parse?
  write := Toml.Sheet.write Toml.writeList
  writeSpread := Toml.Sheet.write Toml.writeSpreadList

end MetricReporting
