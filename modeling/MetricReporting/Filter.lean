import MetricReporting.Store

namespace MetricReporting

abbrev Filter := Store → String → Metric → Except Panic Bool

namespace Filter

def all : Filter := fun _ _ _ => .ok true

def ofNames (admits : String → Bool) : Filter := fun _ name _ => .ok (admits name)

end Filter

structure NamePatterns [Globs] where
  included : List Globs.Pattern := []
  excluded : List Globs.Pattern := []

namespace NamePatterns

variable [Globs]

def parseAll (texts : List String) : Except Failure (List Globs.Pattern) :=
  texts.mapM fun text =>
    match Globs.parse text with
    | .ok pattern => .ok pattern
    | .error flaw => .error (.badPattern text flaw)

def parse (included excluded : List String) : Except Failure NamePatterns := do
  return ⟨← parseAll included, ← parseAll excluded⟩

def admitsAll (f : NamePatterns) : Bool := f.included.isEmpty && f.excluded.isEmpty

def admits (f : NamePatterns) (name : String) : Bool :=
  (f.included.isEmpty || f.included.any (Globs.covers · name)) &&
    !f.excluded.any (Globs.covers · name)

def filter (f : NamePatterns) : Filter := Filter.ofNames f.admits

end NamePatterns

end MetricReporting
