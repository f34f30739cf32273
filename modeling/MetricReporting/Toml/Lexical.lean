/-!
The words of TOML: blanks, comments, ends of lines, the four kinds of string and bare keys. A reader takes the
characters to read and gives what it read and the characters left over; it is `none` where the text is no TOML.
-/
namespace MetricReporting.Toml

abbrev Reader (α : Type) := List Char → Option (α × List Char)

def isBlank (c : Char) : Bool := c == ' ' || c == '\t'

def skipBlanks (cs : List Char) : List Char := cs.dropWhile isBlank

def isPrintable (c : Char) : Bool := c == '\t' || (0x20 ≤ c.toNat && c != '\x7f')

def lineEnd : List Char → Option (List Char)
  | '\n' :: rest => some rest
  | '\r' :: '\n' :: rest => some rest
  | _ => none

def skipComment : List Char → List Char
  | '#' :: rest => rest.dropWhile isPrintable
  | cs => cs

def finishLine (cs : List Char) : Option (List Char) :=
  match skipComment (skipBlanks cs) with
  | [] => some []
  | rest => lineEnd rest

def skipSpaceUpTo : Nat → List Char → List Char
  | 0, cs => cs
  | fuel + 1, cs =>
    match cs with
    | '#' :: _ => skipSpaceUpTo fuel (skipComment cs)
    | '\r' :: '\n' :: rest => skipSpaceUpTo fuel rest
    | c :: rest => if isBlank c || c == '\n' then skipSpaceUpTo fuel rest else cs
    | [] => []

def skipSpace (cs : List Char) : List Char := skipSpaceUpTo cs.length cs

def skipLines : List Char → List Char
  | '\r' :: '\n' :: rest => skipLines rest
  | c :: rest => if isBlank c || c == '\n' then skipLines rest else c :: rest
  | [] => []

def untilEnd (finish unit : Reader (List Char)) : Nat → Reader (List Char)
  | 0, _ => none
  | fuel + 1, cs =>
    match finish cs with
    | some done => some done
    | none => do
      let (first, rest) ← unit cs
      let (others, rest) ← untilEnd finish unit fuel rest
      return (first ++ others, rest)

def hexValue? (c : Char) : Option Nat :=
  if c.isDigit then some (c.toNat - '0'.toNat)
  else if 'a' ≤ c && c ≤ 'f' then some (c.toNat - 'a'.toNat + 10)
  else if 'A' ≤ c && c ≤ 'F' then some (c.toNat - 'A'.toNat + 10)
  else none

def codePoint (digits : Nat) (cs : List Char) : Option (List Char × List Char) := do
  let values ← (cs.take digits).mapM hexValue?
  let n := values.foldl (fun n d => n * 16 + d) 0
  if values.length = digits ∧ n.isValidChar then some ([Char.ofNat n], cs.drop digits) else none

def escape : Reader (List Char)
  | 'b' :: rest => some (['\x08'], rest)
  | 't' :: rest => some (['\t'], rest)
  | 'n' :: rest => some (['\n'], rest)
  | 'f' :: rest => some (['\x0c'], rest)
  | 'r' :: rest => some (['\r'], rest)
  | '"' :: rest => some (['"'], rest)
  | '\\' :: rest => some (['\\'], rest)
  | 'u' :: rest => codePoint 4 rest
  | 'U' :: rest => codePoint 8 rest
  | _ => none

def unit (escapes lines : Bool) : Reader (List Char)
  | [] => none
  | c :: rest =>
    if c == '\\' && escapes then
      match lineEnd (skipBlanks rest) with
      | some after => if lines then some ([], skipLines after) else none
      | none => escape rest
    else
      match lineEnd (c :: rest) with
      | some after => if lines then some (['\n'], after) else none
      | none => if isPrintable c then some ([c], rest) else none

def closing (quote : Char) : Reader (List Char)
  | [] => none
  | c :: rest => if c == quote then some ([], rest) else none

/-- Three quotes close a string of several lines, and up to two more before them belong to it. -/
def tripleClosing (quote : Char) (cs : List Char) : Option (List Char × List Char) :=
  let quotes := (cs.takeWhile (· == quote)).length
  if quotes < 3 then none
  else some (List.replicate (min (quotes - 3) 2) quote, cs.drop (min quotes 5))

def lineString (quote : Char) (cs : List Char) : Option (String × List Char) := do
  let (content, rest) ← untilEnd (closing quote) (unit (quote == '"') false) (cs.length + 1) cs
  return (String.ofList content, rest)

def linesString (quote : Char) (cs : List Char) : Option (String × List Char) := do
  let cs := (lineEnd cs).getD cs
  let (content, rest) ← untilEnd (tripleClosing quote) (unit (quote == '"') true) (cs.length + 1) cs
  return (String.ofList content, rest)

def string : Reader String
  | '"' :: '"' :: '"' :: rest => linesString '"' rest
  | '\'' :: '\'' :: '\'' :: rest => linesString '\'' rest
  | '"' :: rest => lineString '"' rest
  | '\'' :: rest => lineString '\'' rest
  | _ => none

def isBareKeyChar (c : Char) : Bool := c.isAlphanum || c == '_' || c == '-'

def simpleKey : Reader String
  | '"' :: rest => lineString '"' rest
  | '\'' :: rest => lineString '\'' rest
  | cs =>
    match cs.takeWhile isBareKeyChar with
    | [] => none
    | bare => some (String.ofList bare, cs.dropWhile isBareKeyChar)

def keyParts : Nat → Reader (List String)
  | 0, _ => none
  | fuel + 1, cs => do
    let (part, rest) ← simpleKey (skipBlanks cs)
    match skipBlanks rest with
    | '.' :: rest =>
      let (parts, rest) ← keyParts fuel rest
      return (part :: parts, rest)
    | rest => return ([part], rest)

def depthLimit : Nat := 80

def key (cs : List Char) : Option ((List String × String) × List Char) := do
  let (parts, rest) ← keyParts (depthLimit - 1) cs
  let last ← parts.getLast?
  return ((parts.dropLast, last), rest)

end MetricReporting.Toml
