/-!
The values of a TOML document, and the rules by which keys and headers build up its tables.

Keys and headers may come in any order but may not define anything twice: `define` enters what a key-value pair
says, `openTable` and `openElement` what a header says. Each is `none` where the document breaks a rule.
-/
namespace MetricReporting.Toml

inductive Origin
  | braces
  | header
  | passed
  | dotted
deriving DecidableEq, Repr

/-- Numbers are read, but not kept. -/
inductive Value
  | text (s : String)
  | flag (b : Bool)
  | number
  | moment (s : String)
  | list (items : List Value)
  | table (origin : Origin) (entries : List (String × Value))
  | tables (elements : List (List (String × Value)))
deriving Inhabited

abbrev Entries := List (String × Value)

namespace Entries

def get? (entries : Entries) (key : String) : Option Value :=
  (entries.find? (·.1 == key)).map (·.2)

def put (entries : Entries) (key : String) (value : Value) : Entries :=
  if entries.any (·.1 == key) then entries.map (fun e => if e.1 == key then (key, value) else e)
  else entries ++ [(key, value)]

def define (entries : Entries) : List String → String → Value → Option Entries
  | [], key, value => if (entries.get? key).isSome then none else some (entries.put key value)
  | first :: path, key, value =>
    match entries.get? first with
    | none => do
      let inner ← define [] path key value
      return entries.put first (.table .dotted inner)
    | some (.table origin inner) =>
      if origin = .dotted ∨ (origin = .passed ∧ path ≠ []) then do
        let inner ← define inner path key value
        return entries.put first (.table origin inner)
      else none
    | some (.tables elements) =>
      if path = [] then none
      else
        match elements.getLast? with
        | none => none
        | some last => do
          let last ← define last path key value
          return entries.put first (.tables (elements.dropLast ++ [last]))
    | some _ => none

def modifyAt (entries : Entries) (edit : Entries → Option Entries) : List String → Option Entries
  | [] => edit entries
  | first :: path =>
    match entries.get? first with
    | none => do
      let inner ← modifyAt [] edit path
      return entries.put first (.table .passed inner)
    | some (.table origin inner) =>
      if origin = .braces then none
      else do
        let inner ← modifyAt inner edit path
        return entries.put first (.table origin inner)
    | some (.tables elements) =>
      match elements.getLast? with
      | none => none
      | some last => do
        let last ← modifyAt last edit path
        return entries.put first (.tables (elements.dropLast ++ [last]))
    | some _ => none

def openTable (entries : Entries) (path : List String) (key : String) : Option Entries :=
  entries.modifyAt (fun parent =>
    match parent.get? key with
    | none => some (parent.put key (.table .header []))
    | some (.table .passed inner) => some (parent.put key (.table .header inner))
    | some _ => none) path

def openElement (entries : Entries) (path : List String) (key : String) : Option Entries :=
  entries.modifyAt (fun parent =>
    match parent.get? key with
    | none => some (parent.put key (.tables [[]]))
    | some (.tables elements) => some (parent.put key (.tables (elements ++ [[]])))
    | some _ => none) path

end Entries

namespace Value

def text? : Value → Option String
  | text s => some s
  | _ => none

def flag? : Value → Option Bool
  | flag b => some b
  | _ => none

def texts? : Value → Option (List String)
  | list items => items.mapM text?
  | _ => none

def textTable? : Value → Option (List (String × String))
  | table _ entries => entries.mapM (fun e => e.2.text?.map (fun s => (e.1, s)))
  | moment s => some [("$__toml_private_datetime", s)]
  | _ => none

end Value

end MetricReporting.Toml
