import MetricReporting.Point.Json
import MetricReporting.Proofs.NameMaps
import MetricReporting.Proofs.Numerals

namespace MetricReporting

namespace Json

variable {α β : Type} {read : List Char → Read α} {text : String} {v : α}

theorem Reads.map (h : Reads read text v) (f : α → β) :
    Reads (fun cs => (read cs).map fun p => (f p.1, p.2)) text (f v) := by
  intro tail htail
  simp only [h tail htail, Except.map]

theorem Reads.optional {cs : List Char} (h : Reads read text v) (hbrace : text.toList = '\x7b' :: cs) :
    Reads (Json.optional read) text (some v) := by
  intro tail htail
  have hread := h tail htail
  rw [hbrace, List.cons_append] at hread ⊢
  rw [Json.optional, skipSpace, List.dropWhile_cons_of_neg (by decide)]
  simp [hread, Except.map]

theorem reads_null : Reads (Json.optional read) "null" none := by
  intro tail htail
  rfl

theorem toList_objectText (ms : List (String × String)) : ∃ cs, (objectText ms).toList = '\x7b' :: cs := by
  cases ms with
  | nil => exact ⟨['\x7d'], rfl⟩
  | cons m rest => exact ⟨_, toList_objectText_cons m rest⟩

end Json

namespace Point

open Json

section

variable [FloatFormat]

def IsExact (p : Point) : Prop := ∀ e ∈ p.fields.entries, e.2.IsExact

instance (p : Point) : Decidable p.IsExact :=
  inferInstanceAs (Decidable (∀ e ∈ p.fields.entries, e.2.IsExact))

theorem reads_tags (tags : Option Tags) : Reads readTags ((tags.map tagsJson).getD "null") tags := by
  cases tags with
  | none => exact reads_null.map (Option.map NameMap.ofList)
  | some tags =>
    obtain ⟨cs, hbrace⟩ := toList_objectText (tags.entries.map fun e => (e.1, quote e.2))
    have hobject := reads_objectText tags.entries (fun e _ => reads_quote e.2)
    have htags := (hobject.optional hbrace).map (Option.map NameMap.ofList)
    rw [Option.map_some, NameMap.ofList_entries] at htags
    exact htags

theorem reads_fields [LawfulFloatFormat] {fields : Fields} (h : ∀ e ∈ fields.entries, e.2.IsExact) :
    Reads readFields (objectText (fields.entries.map fun e => (e.1, e.2.json))) fields := by
  have hvalue := fun e he => FieldValue.reads_json (FieldValue.nestingLimit - 2) (h e he)
  have hobject := reads_objectText fields.entries hvalue
  have hfields := hobject.map NameMap.ofList
  rw [NameMap.ofList_entries] at hfields
  exact hfields

section Draft

variable {d d' : Draft} {rest after : List Char}

theorem readMember_measurement {s : String} (hd : d.measurement = none) (h : string rest = .ok (s, after)) :
    d.readMember "measurement" (':' :: rest) = .ok ({ d with measurement := some s }, after) := by
  have hcolon : afterColon (':' :: rest) = .ok rest := rfl
  simp [Draft.readMember, hd, hcolon, h, bind, Except.bind, pure, Except.pure]

theorem readMember_tags {tags : Option Tags} (hd : d.tags = none) (h : readTags rest = .ok (tags, after)) :
    d.readMember "tags" (':' :: rest) = .ok ({ d with tags := some tags }, after) := by
  have hcolon : afterColon (':' :: rest) = .ok rest := rfl
  simp [Draft.readMember, hd, hcolon, h, bind, Except.bind, pure, Except.pure]

theorem readMember_timestamp {s : String} (hd : d.timestamp = none) (h : string rest = .ok (s, after)) :
    d.readMember "timestamp" (':' :: rest) = .ok ({ d with timestamp := some s }, after) := by
  have hcolon : afterColon (':' :: rest) = .ok rest := rfl
  simp [Draft.readMember, hd, hcolon, h, bind, Except.bind, pure, Except.pure]

theorem readMember_fields {fields : Fields} (hd : d.fields = none) (h : readFields rest = .ok (fields, after)) :
    d.readMember "fields" (':' :: rest) = .ok ({ d with fields := some fields }, after) := by
  have hcolon : afterColon (':' :: rest) = .ok rest := rfl
  simp [Draft.readMember, hd, hcolon, h, bind, Except.bind, pure, Except.pure]

theorem readMembers_of_key {first : Bool} {cs : List Char} {name : String} {fuel : Nat}
    {result : Except Flaw (Point × List Char)} (hkey : nextKey first cs = .ok (.key name rest))
    (hmember : d.readMember name rest = .ok (d', after)) (hothers : Draft.readMembers fuel false d' after = result) :
    Draft.readMembers (fuel + 1) first d cs = result := by
  simp only [Draft.readMembers, hkey, hmember, hothers, bind, Except.bind]

theorem readMembers_written {p : Point} {tagsText fieldsText : String} (htags : Reads readTags tagsText p.tags)
    (hfields : Reads readFields fieldsText p.fields) (fuel : Nat) (tail : List Char) :
    Draft.readMembers (fuel + 5) true {} (memberText ("measurement", quote p.measurement) ++
        laterMembers [("tags", tagsText), ("timestamp", quote p.timestamp), ("fields", fieldsText)] ++ '\x7d' :: tail) =
      .ok (p, tail) := by
  simp only [laterMembers, memberText, List.flatMap_cons, List.flatMap_nil, List.append_assoc, List.cons_append,
    List.nil_append]
  have hmeasurement := reads_quote p.measurement
  have htimestamp := reads_quote p.timestamp
  refine readMembers_of_key (nextKey_of_quote _ _) (readMember_measurement rfl (hmeasurement _ (closes_comma _))) ?_
  refine readMembers_of_key (nextKey_of_comma _ _) (readMember_tags rfl (htags _ (closes_comma _))) ?_
  refine readMembers_of_key (nextKey_of_comma _ _) (readMember_timestamp rfl (htimestamp _ (closes_comma _))) ?_
  refine readMembers_of_key (nextKey_of_comma _ _) (readMember_fields rfl (hfields _ (closes_brace tail))) ?_
  rfl

end Draft

theorem read_of_brace (cs : List Char) : read ('\x7b' :: cs) = Draft.readMembers (cs.length + 1) true {} cs := by
  rfl

theorem reads_json [LawfulFloatFormat] {p : Point} (h : p.IsExact) : Reads read p.json p := by
  intro tail _
  have hmembers := readMembers_written (reads_tags p.tags) (reads_fields h)
  have hlength := length_le_laterMembers
    [("tags", (p.tags.map tagsJson).getD "null"), ("timestamp", quote p.timestamp),
      ("fields", objectText (p.fields.entries.map fun e => (e.1, e.2.json)))]
  rw [json, toList_objectText_cons, List.cons_append, List.append_assoc, List.singleton_append, read_of_brace]
  -- The reader may take as many steps as there are characters, and it takes five.
  generalize laterMembers _ = later at hmembers hlength ⊢
  generalize memberText ("measurement", quote p.measurement) = first at hmembers ⊢
  obtain ⟨fuel, hfuel⟩ : ∃ fuel, (first ++ later ++ '\x7d' :: tail).length + 1 = fuel + 5 := by
    refine ⟨(first ++ later ++ '\x7d' :: tail).length - 4, ?_⟩
    simp only [List.length_append, List.length_cons, List.length_nil] at hlength ⊢
    omega
  rw [hfuel]
  exact hmembers fuel tail

/-- A point whose floats are exact comes back from its text, no other such point has that text, and if the point was
read from some text its own text is read alike. -/
theorem survives_text [LawfulFloatFormat] (p : Point) (exact : p.IsExact) :
    parse p.json = .ok p ∧ (∀ q : Point, q.IsExact → q ≠ p → q.json ≠ p.json) ∧
      ∀ text, parse text = .ok p → parse p.json = parse text := by
  have hparse : parse p.json = .ok p := (reads_json exact).document
  refine ⟨hparse, ?_, ?_⟩
  · intro q hq hne hjson
    have hparse' : parse q.json = .ok q := (reads_json hq).document
    rw [hjson, hparse] at hparse'
    cases hparse'
    exact hne rfl
  · intro text htext
    rw [hparse, htext]

end

theorem survives_text_with_signed_zero :
    let tags : Tags := NameMap.ofList [("host\n", "\"a\" \\ b"), ("zone", "")]
    let fields : List (String × FieldValue) := [
      ("whole", .float 3.0), ("zero", .float (Float.ofBits 0x8000000000000000)), ("small", .float 1.5e-7),
      ("least", .integer Int64.minValue), ("word", .text "\u0001 3.0"), ("up", .flag true)]
    let p : Point := ⟨"load \u2603", some tags, "1500", NameMap.ofList fields⟩
    let q : Point := ⟨"load \u2603", some tags, "1500", (NameMap.ofList fields).insert "whole" (.integer 3)⟩
    parse p.json = .ok p ∧ q.json ≠ p.json := by
  intro tags fields p q
  have exact : p.IsExact := by decide +kernel
  have exact' : q.IsExact := by decide +kernel
  obtain ⟨hparse, hother, -⟩ := survives_text p exact
  refine ⟨hparse, hother q exact' ?_⟩
  intro heq
  have hwhole := congrArg (fun r => (r.field? "whole").bind FieldValue.toInteger?) heq
  revert hwhole
  decide +kernel

end Point

end MetricReporting
