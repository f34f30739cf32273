import MetricReporting.Point

namespace MetricReporting.Point

variable [FloatFormat]

def tagsJson (tags : Tags) : String :=
  Json.objectText (tags.entries.map (fun e => (e.1, Json.quote e.2)))

def json (p : Point) : String :=
  Json.objectText [("measurement", Json.quote p.measurement),
    ("tags", (p.tags.map tagsJson).getD "null"),
    ("timestamp", Json.quote p.timestamp),
    ("fields", Json.objectText (p.fields.entries.map (fun e => (e.1, e.2.json))))]

def readTags (cs : List Char) : Json.Read (Option Tags) :=
  (Json.optional (Json.object Json.string) cs).map (fun p => (p.1.map NameMap.ofList, p.2))

def readFields (cs : List Char) : Json.Read Fields :=
  (Json.object (FieldValue.read (FieldValue.nestingLimit - 2)) cs).map (fun p => (NameMap.ofList p.1, p.2))

structure Draft where
  measurement : Option String := none
  tags : Option (Option Tags) := none
  timestamp : Option String := none
  fields : Option Fields := none

namespace Draft

def point? (d : Draft) : Option Point := do
  return ⟨← d.measurement, d.tags.getD none, ← d.timestamp, ← d.fields⟩

def readMember (d : Draft) (name : String) (cs : List Char) : Except Json.Flaw (Draft × List Char) := do
  match name with
  | "measurement" =>
    if d.measurement.isSome then .error .mismatched
    let (v, rest) ← Json.string (← Json.afterColon cs)
    return ({ d with measurement := some v }, rest)
  | "tags" =>
    if d.tags.isSome then .error .mismatched
    let (v, rest) ← readTags (← Json.afterColon cs)
    return ({ d with tags := some v }, rest)
  | "timestamp" =>
    if d.timestamp.isSome then .error .mismatched
    let (v, rest) ← Json.string (← Json.afterColon cs)
    return ({ d with timestamp := some v }, rest)
  | "fields" =>
    if d.fields.isSome then .error .mismatched
    let (v, rest) ← readFields (← Json.afterColon cs)
    return ({ d with fields := some v }, rest)
  | _ => return (d, ← Json.skip ⟨false, none⟩ (← Json.afterColon cs))

def readMembers : Nat → Bool → Draft → List Char → Except Json.Flaw (Point × List Char)
  | 0, _, _, _ => .error .malformed
  | fuel + 1, first, d, cs => do
    match ← Json.nextKey first cs with
    | .close rest =>
      match d.point? with
      | some p => return (p, rest)
      | none => .error .mismatched
    | .key name rest =>
      let (d, rest) ← d.readMember name rest
      readMembers fuel false d rest

end Draft

def beforeElement (first : Bool) (cs : List Char) : Except Json.Flaw (List Char) :=
  match Json.skipSpace cs with
  | [] => .error .truncated
  | ']' :: _ => .error .mismatched
  | ',' :: rest =>
    if first then .ok (',' :: rest)
    else
      match Json.skipSpace rest with
      | [] => .error .truncated
      | ']' :: _ => .error .malformed
      | other => .ok other
  | other => if first then .ok other else .error .malformed

def readElements (cs : List Char) : Except Json.Flaw (Point × List Char) := do
  let (measurement, rest) ← Json.string (← beforeElement true cs)
  let (tags, rest) ← readTags (← beforeElement false rest)
  let (timestamp, rest) ← Json.string (← beforeElement false rest)
  let (fields, rest) ← readFields (← beforeElement false rest)
  match Json.skipSpace rest with
  | ']' :: rest => return (⟨measurement, tags, timestamp, fields⟩, rest)
  | [] => .error .truncated
  | _ => .error .malformed

def read (cs : List Char) : Json.Read Point :=
  match Json.skipSpace cs with
  | [] => .error .truncated
  | '\x7b' :: rest => Draft.readMembers (rest.length + 1) true {} rest
  | '[' :: rest => readElements rest
  | other => .error (Json.refusal other)

def parse (text : String) : Except Json.Flaw Point := Json.document read text

end MetricReporting.Point
