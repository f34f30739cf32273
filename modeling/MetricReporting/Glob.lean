/-!
Glob patterns over whole names. `?` stands for any one character, `*` for any characters, `[…]` and `[!…]` for
one character in or out of a set, and `**` as a whole path component for any path prefix. A slash is otherwise
a character like any other.
-/
namespace MetricReporting

namespace Glob

inductive Member
  | one (c : Char)
  | range (first last : Char)
deriving DecidableEq, Repr

def Member.admits (c : Char) : Member → Bool
  | one d => c == d
  | range first last => first ≤ c && c ≤ last

inductive CharClass
  | any
  | exactly (c : Char)
  | within (members : List Member)
  | outside (members : List Member)
deriving DecidableEq, Repr

def CharClass.admits (c : Char) : CharClass → Bool
  | any => true
  | exactly d => c == d
  | within members => members.any (·.admits c)
  | outside members => !members.any (·.admits c)

inductive Token
  | char (admitted : CharClass)
  | sequence
  | path
deriving DecidableEq, Repr

abbrev Pattern := List Token

inductive FlawKind
  | wildcards
  | recursiveWildcards
  | characterSet
deriving DecidableEq, Repr

structure Flaw where
  position : Nat
  kind : FlawKind
deriving DecidableEq, Repr

def FlawKind.message : FlawKind → String
  | wildcards => "wildcards are either regular `*` or recursive `**`"
  | recursiveWildcards => "recursive wildcards must form a single path component"
  | characterSet => "invalid range pattern"

def Flaw.message (f : Flaw) : String :=
  s!"Pattern syntax error near position {f.position}: " ++ f.kind.message

def members : List Char → List Member
  | first :: '-' :: last :: rest => .range first last :: members rest
  | c :: rest => .one c :: members rest
  | [] => []

def bracketed? : List Char → Option (List Char × List Char)
  | [] => none
  | first :: rest =>
    match rest.span (· != ']') with
    | (_, []) => none
    | (inside, _ :: after) => some (first :: inside, after)

def charSet? : List Char → Option (CharClass × List Char)
  | '!' :: rest => (bracketed? rest).map (fun p => (.outside (members p.1), p.2))
  | rest => (bracketed? rest).map (fun p => (.within (members p.1), p.2))

def addPath (tokens : List Token) : List Token :=
  if 1 < tokens.length && tokens.getLast? == some .path then tokens else tokens ++ [.path]

/--
Reads the rest of a pattern. `position` is how many characters came before it, `before?` is the last of them,
and `tokens` are those read so far; `fuel` bounds the number of tokens to come.
-/
def readTokens : Nat → Nat → Option Char → List Token → List Char → Except Flaw Pattern
  | _, _, _, tokens, [] => .ok tokens
  | 0, position, _, _, _ => .error ⟨position, .characterSet⟩
  | fuel + 1, position, before?, tokens, c :: rest =>
    if c = '?' then readTokens fuel (position + 1) (some c) (tokens ++ [.char .any]) rest
    else if c = '*' then
      let stars := 1 + (rest.takeWhile (· == '*')).length
      let after := rest.dropWhile (· == '*')
      if 2 < stars then .error ⟨position + 2, .wildcards⟩
      else if stars = 1 then readTokens fuel (position + 1) (some c) (tokens ++ [.sequence]) after
      else if before?.any (· != '/') then .error ⟨position - 1, .recursiveWildcards⟩
      else
        match after with
        | [] => readTokens fuel (position + 2) (some c) (addPath tokens) []
        | '/' :: after => readTokens fuel (position + 3) (some '/') (addPath tokens) after
        | _ => .error ⟨position + 2, .recursiveWildcards⟩
    else if c = '[' then
      match charSet? rest with
      | none => .error ⟨position, .characterSet⟩
      | some (admitted, after) =>
        readTokens fuel (position + 1 + (rest.length - after.length)) (some ']')
          (tokens ++ [.char admitted]) after
    else readTokens fuel (position + 1) (some c) (tokens ++ [.char (.exactly c)]) rest

def parse (text : String) : Except Flaw Pattern :=
  readTokens text.toList.length 0 none [] text.toList

def placesFrom (name : Array Char) (first : Nat) : List Nat := List.range' first (name.size + 1 - first)

def isBoundary (name : Array Char) (place : Nat) : Bool :=
  place = name.size || (0 < place && name[place - 1]? == some '/')

/--
Where in a name a match may stand after a token, given where it may stand before it. A place counts the characters
that lead to it; the places are ascending.
-/
def Token.advance (name : Array Char) : Token → List Nat → List Nat
  | .char admitted, places => places.filterMap fun place =>
    if name[place]?.any admitted.admits then some (place + 1) else none
  | .sequence, places => (places.head?.map (placesFrom name)).getD []
  | .path, places =>
    match places with
    | [] => []
    | first :: _ =>
      (places.merge ((placesFrom name (first + 1)).filter (isBoundary name)) (· ≤ ·)).eraseReps

def covers (pattern : Pattern) (name : String) : Bool :=
  let characters := name.toList.toArray
  (pattern.foldl (fun places t => t.advance characters places) [0]).contains characters.size

end Glob

/-- What decides which texts are patterns, and which names a pattern covers. -/
class Globs where
  Pattern : Type
  parse : String → Except Glob.Flaw Pattern
  covers : Pattern → String → Bool

instance : Globs where
  Pattern := Glob.Pattern
  parse := Glob.parse
  covers := Glob.covers

end MetricReporting
