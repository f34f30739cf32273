import MetricReporting.Proofs.Outputs
import MetricReporting.Proofs.PointTexts
import MetricReporting.Proofs.Texts

namespace MetricReporting

namespace Json

theorem newline_not_mem_escaped (c : Char) : '\n' ∉ escaped c := by
  have hdigit : ∀ n : Fin 16, Nat.digitChar n ≠ '\n' := by decide
  have hhex (n : Nat) : hexDigit n ≠ '\n' := hdigit ⟨n % 16, Nat.mod_lt _ (by decide)⟩
  unfold escaped
  split_ifs with hquote hslash hnewline
  all_goals simp [Ne.symm, *]

theorem newline_not_mem_quote (s : String) : '\n' ∉ (quote s).toList := by
  simp [toList_quote, newline_not_mem_escaped]

theorem newline_not_mem_objectText {ms : List (String × String)} (h : ∀ m ∈ ms, '\n' ∉ m.2.toList) :
    '\n' ∉ (objectText ms).toList := by
  have hmember : ∀ m ∈ ms, '\n' ∉ memberText m := by
    intro m hm
    simp [memberText, newline_not_mem_quote, h m hm]
  cases ms with
  | nil => decide
  | cons m rest =>
    obtain ⟨hfirst, hrest⟩ := List.forall_mem_cons.mp hmember
    have hlater : '\n' ∉ laterMembers rest := by
      simp only [laterMembers, List.mem_flatMap, List.mem_cons, not_exists, not_and, not_or]
      exact fun m hm => ⟨by decide, hrest m hm⟩
    rw [toList_objectText_cons]
    simp [hfirst, hlater]

end Json

open Json

section

variable [FloatFormat] [LawfulFloatFormat]

theorem FloatFormat.newline_not_mem_text (x : Float) : '\n' ∉ (text x).toList := by
  cases hnull : x.isNaN || x.isInf with
  | true =>
    rw [LawfulFloatFormat.text_of_not_finite hnull]
    decide
  | false =>
    obtain ⟨hnan, hinf⟩ := Bool.or_eq_false_iff.mp hnull
    intro hmem
    cases (LawfulFloatFormat.isDecimal_text hnan hinf).numeric _ hmem

theorem FieldValue.newline_not_mem_json (v : FieldValue) : '\n' ∉ v.json.toList := by
  cases v with
  | integer n =>
    have hdigits (k : Nat) : '\n' ∉ k.repr.toList := fun hmem => nomatch allNumeric_toString k _ hmem
    rw [json, Int.toString_eq_repr, Int.repr_eq_if]
    split_ifs
    · exact hdigits _
    · rw [String.toList_append, List.mem_append, not_or]
      exact ⟨by decide, hdigits _⟩
  | float x => exact FloatFormat.newline_not_mem_text x
  | text s => exact newline_not_mem_quote s
  | flag b => cases b <;> simp [json]

theorem Point.newline_not_mem_json (p : Point) : '\n' ∉ p.json.toList := by
  have htags : '\n' ∉ ((p.tags.map tagsJson).getD "null").toList := by
    cases p.tags with
    | none => decide
    | some tags =>
      apply newline_not_mem_objectText
      rw [List.forall_mem_map]
      exact fun e _ => newline_not_mem_quote e.2
  have hfields : '\n' ∉ (objectText (p.fields.entries.map fun e => (e.1, e.2.json))).toList := by
    apply newline_not_mem_objectText
    rw [List.forall_mem_map]
    exact fun e _ => e.2.newline_not_mem_json
  apply newline_not_mem_objectText
  simp only [List.forall_mem_cons]
  exact ⟨newline_not_mem_quote _, htags, newline_not_mem_quote _, hfields, nofun⟩

end

namespace Sender.JsonLines

def transmit [FloatFormat] (common : Tags) (points : List Point) : Action JsonLines Unit := do
  Sender.useTags common
  Sender.flush
  points.forM Sender.append
  Sender.write

structure GoesOutAs (common : Tags) (p q : Point) : Prop where
  measurement : q.measurement = p.measurement
  timestamp : q.timestamp = p.timestamp
  fields (name : String) (value : FieldValue) : q.fields.get? name = some value ↔
    p.fields.get? name = some value ∧ ∀ x, value = .float x → x.isNaN = false ∧ x.isInf = false
  untagged : common = .empty → q.tags = p.tags
  tagged : common ≠ .empty → ∃ tags, q.tags = some tags ∧
    ∀ key, tags.get? key = ((p.tags.getD .empty).get? key).or (common.get? key)

theorem isPrintable_iff (value : FieldValue) :
    isPrintable value = true ↔ ∀ x, value = .float x → x.isNaN = false ∧ x.isInf = false := by
  cases value <;> simp [isPrintable]

theorem isEmpty_iff (tags : Tags) : tags.isEmpty = true ↔ tags = .empty := by
  rw [NameMap.isEmpty, List.isEmpty_iff]
  constructor
  · intro h
    cases tags
    cases h
    rfl
  · rintro rfl
    rfl

theorem outgoing_goesOutAs (common : Tags) (p : Point) : GoesOutAs common p (outgoing common p) where
  measurement := rfl
  timestamp := rfl
  fields name value := by
    rw [← isPrintable_iff]
    exact NameMap.get?_filter_eq_some_iff
  untagged h := if_pos ((isEmpty_iff common).mpr h)
  tagged h :=
    ⟨_, if_neg (mt (isEmpty_iff common).mp h), NameMap.get?_overlay common _⟩

theorem outgoing_outgoing (common : Tags) (p : Point) :
    outgoing common (outgoing common p) = outgoing common p := by
  have hfields (fields : Fields) : (fields.filter fun _ v => isPrintable v).filter (fun _ v => isPrintable v) =
      fields.filter fun _ v => isPrintable v := by
    simp [NameMap.filter]
  have hoverlay (tags : Tags) : common.overlay (common.overlay tags) = common.overlay tags := by
    apply NameMap.ext_get?
    intro key
    simp only [NameMap.get?_overlay]
    cases tags.get? key <;> cases common.get? key <;> rfl
  unfold outgoing
  by_cases hempty : common.isEmpty = true
  · simp [hempty, hfields]
  · simp [hempty, hfields, hoverlay]

theorem appends_end (points : List Point) (s : JsonLines) :
    ((forM points Sender.append : Action JsonLines Unit) s).Ends (.ok ())
      { s with pending := s.pending ++ points } := by
  induction points generalizing s with
  | nil => exact ⟨rfl, by rw [List.append_nil]; rfl⟩
  | cons p rest ih =>
    rw [List.forM_cons, ← List.singleton_append, ← List.append_assoc]
    exact .bind_ok ⟨rfl, rfl⟩ (ih { s with pending := s.pending ++ [p] })

theorem lines_are_points [FloatFormat] [LawfulFloatFormat] (common : Tags) (points : List Point) (s : JsonLines)
    (unbounded : s.out.room = none) (flushes : s.out.flushReason = none) :
    ∃ text : String,
      (transmit common points s).Ends (.ok ()) { s with
        tags := common
        pending := []
        out := { s.out with written := s.out.written ++ text.toUTF8 } } ∧
      Text.pieces '\n' text.toList = points.map (fun p => (outgoing common p).json.toList) ++ [[]] ∧
      (∀ p ∈ points, '\n' ∉ (outgoing common p).json.toList ∧ GoesOutAs common p (outgoing common p) ∧
        ((outgoing common p).IsExact → Point.parse (outgoing common p).json = .ok (outgoing common p))) ∧
      ∀ p, outgoing common (outgoing common p) = outgoing common p := by
  refine ⟨String.join (points.map (line common)), ?_, ?_, ?_, outgoing_outgoing common⟩
  · have happends := appends_end points { s with tags := common, pending := [] }
    have hwrite := write_ends (s := { s with tags := common, pending := points }) unbounded flushes
    exact .bind_ok ⟨rfl, rfl⟩ (.bind_ok ⟨rfl, rfl⟩ (.bind_ok happends hwrite))
  · have htext : (String.join (points.map (line common))).toList =
        (points.map fun p => (outgoing common p).json.toList).flatMap (· ++ ['\n']) := by
      simp [String.toList_join, List.flatMap_map, line]
    rw [htext]
    apply Text.pieces_of_ended
    simp [Point.newline_not_mem_json]
  · intro p _
    exact ⟨Point.newline_not_mem_json _, outgoing_goesOutAs common p, fun exact => (Point.reads_json exact).document⟩

theorem lines_are_points_with_newlines_and_wild_floats :
    let common : Tags := NameMap.ofList [("host", "web\n1"), ("zone", "a")]
    let fields : Fields := NameMap.ofList
      [("far", .float (1.0 / 0.0)), ("nan", .float (0.0 / 0.0)), ("rate", .float 1.5), ("word", .text "up\nand on")]
    let own : Point := ⟨"load\n", some (NameMap.ofList [("zone", "b")]), "1500", fields⟩
    let stray : Point := ⟨"stray", none, "0", .empty⟩
    let s : JsonLines := { pending := [stray] }
    ∃ text : String,
      (transmit common [own, stray] s).state.out.written = text.toUTF8 ∧
        Text.pieces '\n' text.toList =
          ["\x7b\"measurement\":\"load\\n\",\"tags\":\x7b\"host\":\"web\\n1\",\"zone\":\"b\"\x7d," ++
              "\"timestamp\":\"1500\",\"fields\":\x7b\"rate\":1.5,\"word\":\"up\\nand on\"\x7d\x7d",
            "\x7b\"measurement\":\"stray\",\"tags\":\x7b\"host\":\"web\\n1\",\"zone\":\"a\"\x7d," ++
              "\"timestamp\":\"0\",\"fields\":\x7b\x7d\x7d",
            ""].map String.toList := by
  intro common fields own stray s
  obtain ⟨text, hends, hpieces, -⟩ := lines_are_points common [own, stray] s rfl rfl
  refine ⟨text, ?_, ?_⟩
  · rw [hends.2]
    exact ByteArray.empty_append
  · rw [hpieces]
    decide +kernel

end Sender.JsonLines
end MetricReporting
