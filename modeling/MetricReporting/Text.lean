/-!
Cutting text: blanks at its ends, pieces between separators, words in one case. Everything is stated over
`List Char`; the functions on `String` only wrap.
-/
namespace MetricReporting.Text

def blankRanges : List (Nat × Nat) :=
  [(0x09, 0x0D), (0x20, 0x20), (0x85, 0x85), (0xA0, 0xA0), (0x1680, 0x1680), (0x2000, 0x200A),
    (0x2028, 0x2029), (0x202F, 0x202F), (0x205F, 0x205F), (0x3000, 0x3000)]

def isBlank (c : Char) : Bool :=
  blankRanges.any (fun r => r.1 ≤ c.toNat && c.toNat ≤ r.2)

def stripped (cs : List Char) : List Char :=
  ((cs.dropWhile isBlank).reverse.dropWhile isBlank).reverse

def pieces (separator : Char) : List Char → List (List Char)
  | [] => [[]]
  | c :: rest =>
    if c = separator then [] :: pieces separator rest
    else
      match pieces separator rest with
      | [] => [[c]]
      | piece :: others => (c :: piece) :: others

def cut? (separator : Char) : List Char → Option (List Char × List Char)
  | [] => none
  | c :: rest =>
    if c = separator then some ([], rest)
    else (cut? separator rest).map (fun p => (c :: p.1, p.2))

def trim (s : String) : String := String.ofList (stripped s.toList)

def lower (s : String) : String := String.ofList (s.toList.map Char.toLower)

def commaList (s : String) : List String :=
  (((pieces ',' s.toList).map stripped).filter (!·.isEmpty)).map String.ofList

end MetricReporting.Text
