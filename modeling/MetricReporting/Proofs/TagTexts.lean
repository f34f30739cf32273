import MetricReporting.Proofs.NameMaps
import MetricReporting.Proofs.Resolution
import MetricReporting.Proofs.Texts

namespace MetricReporting

namespace Tags

def Gives (piece : List Char) (key value : String) : Prop :=
  ∃ before after, piece = before ++ '=' :: after ∧ '=' ∉ before ∧ ¬ (∀ c ∈ before, Text.isBlank c = true) ∧
    key = String.ofList (Text.stripped before) ∧ value = String.ofList (Text.stripped after)

def IsReadable (piece : List Char) : Prop := (∀ c ∈ piece, Text.isBlank c = true) ∨ ∃ key value, Gives piece key value

def LastGives (pieces : List (List Char)) (key value : String) : Prop :=
  ∃ before piece after, pieces = before ++ piece :: after ∧ Gives piece key value ∧
    ∀ other ∈ after, ∀ value', ¬ Gives other key value'

structure IsTag (key value : String) : Prop where
  key_ne : key ≠ ""
  key_trimmed : Text.trim key = key
  key_plain : ',' ∉ key.toList ∧ '=' ∉ key.toList
  value_trimmed : Text.trim value = value
  value_plain : ',' ∉ value.toList

def render (entries : List (String × String)) : String := ",".intercalate (entries.map fun e => e.1 ++ "=" ++ e.2)

theorem readEntry_stripped {before : List Char} (h : '=' ∉ before) (after : List Char) :
    readEntry (Text.stripped (before ++ '=' :: after)) =
      if (Text.stripped before).isEmpty then .error .blankTagKey
      else .ok (String.ofList (Text.stripped before), String.ofList (Text.stripped after)) := by
  have hbefore : '=' ∉ before.dropWhile Text.isBlank := fun hmem => h ((List.dropWhile_sublist _).subset hmem)
  rw [Text.stripped_append_cons (by decide), readEntry, Text.cut?_of_not_mem hbefore]
  simp only [Text.stripped_dropWhile, Text.stripped_rdropWhile]

theorem readEntry_eq_ok_iff {piece : List Char} {key value : String} :
    readEntry (Text.stripped piece) = .ok (key, value) ↔ Gives piece key value := by
  constructor
  · intro h
    have hmem : '=' ∈ piece := by
      by_contra hnot
      have hcut := Text.cut?_eq_none_iff.mpr fun hmem => hnot (Text.stripped_subset piece hmem)
      rw [readEntry, hcut] at h
      cases h
    obtain ⟨before, after, rfl, hbefore⟩ := List.eq_append_cons_of_mem hmem
    rw [readEntry_stripped hbefore] at h
    split at h
    · cases h
    · rename_i hkey
      cases h
      exact ⟨before, after, rfl, hbefore, (Text.isEmpty_stripped_iff before).not.mp hkey, rfl, rfl⟩
  · rintro ⟨before, after, rfl, hbefore, hkey, rfl, rfl⟩
    rw [readEntry_stripped hbefore, if_neg ((Text.isEmpty_stripped_iff before).not.mpr hkey)]

theorem not_gives_of_blank {piece : List Char} (h : ∀ c ∈ piece, Text.isBlank c = true) (key value : String) :
    ¬ Gives piece key value := by
  rintro ⟨before, after, rfl, -⟩
  cases h '=' (List.mem_append_right before List.mem_cons_self)

theorem Gives.isTag {piece : List Char} {key value : String} (h : Gives piece key value) (hcomma : ',' ∉ piece) :
    IsTag key value := by
  obtain ⟨before, after, rfl, hequals, hkey, rfl, rfl⟩ := h
  rw [List.mem_append, List.mem_cons, not_or, not_or] at hcomma
  constructor
  · intro hempty
    have hnil : Text.stripped before = [] := by rw [← String.toList_ofList (l := Text.stripped before), hempty]; rfl
    exact hkey ((Text.isEmpty_stripped_iff before).mp (List.isEmpty_iff.mpr hnil))
  · rw [Text.trim, String.toList_ofList, Text.stripped_stripped]
  · rw [String.toList_ofList]
    exact ⟨fun hmem => hcomma.1 (Text.stripped_subset _ hmem), fun hmem => hequals (Text.stripped_subset _ hmem)⟩
  · rw [Text.trim, String.toList_ofList, Text.stripped_stripped]
  · rw [String.toList_ofList]
    exact fun hmem => hcomma.2.2 (Text.stripped_subset _ hmem)

theorem IsTag.gives {key value : String} (h : IsTag key value) : Gives (key.toList ++ '=' :: value.toList) key value := by
  refine ⟨key.toList, value.toList, rfl, h.key_plain.2, ?_, h.key_trimmed.symm, h.value_trimmed.symm⟩
  intro hblank
  apply h.key_ne
  rw [← h.key_trimmed, Text.trim, List.isEmpty_iff.mp ((Text.isEmpty_stripped_iff _).mpr hblank), String.ofList_nil]

def tag? (piece : List Char) : Option (String × String) := (readEntry (Text.stripped piece)).toOption

theorem tag?_eq_some_iff {piece : List Char} {key value : String} :
    tag? piece = some (key, value) ↔ Gives piece key value := by
  rw [← readEntry_eq_ok_iff, tag?]
  cases readEntry (Text.stripped piece) <;> simp [Except.toOption]

theorem tag?_eq_none_iff {piece : List Char} : tag? piece = none ↔ ∀ key value, ¬ Gives piece key value := by
  simp only [← tag?_eq_some_iff, Option.eq_none_iff_forall_ne_some, Prod.forall, ne_eq]

def readPieces (pieces : List (List Char)) : Except Failure (List (String × String)) :=
  ((pieces.map Text.stripped).filter (!·.isEmpty)).mapM readEntry

theorem parse_eq (text : String) : parse text = (readPieces (Text.pieces ',' text.toList)).map NameMap.ofList := rfl

theorem readPieces_cons (piece : List Char) (rest : List (List Char)) :
    readPieces (piece :: rest) =
      if (Text.stripped piece).isEmpty then readPieces rest
      else do
        let e ← readEntry (Text.stripped piece)
        let es ← readPieces rest
        return e :: es := by
  rw [readPieces, List.map_cons, List.filter_cons]
  cases hempty : (Text.stripped piece).isEmpty with
  | true => simp [readPieces]
  | false => simp [readPieces, List.mapM_cons]

theorem readPieces_append (pieces others : List (List Char)) :
    readPieces (pieces ++ others) = do
      let l ← readPieces pieces
      let r ← readPieces others
      return l ++ r := by
  simp only [readPieces, List.map_append, List.filter_append, List.mapM_append]

theorem readPieces_gives (pieces : List (List Char)) :
    GivesIff (readPieces pieces) (∀ piece ∈ pieces, IsReadable piece) (pieces.filterMap tag?) := by
  induction pieces with
  | nil => exact .of_ok nofun _
  | cons piece rest ih =>
    rw [readPieces_cons, List.forall_mem_cons]
    split
    · rename_i hempty
      have hblank := (Text.isEmpty_stripped_iff piece).mp hempty
      rw [List.filterMap_cons_none (tag?_eq_none_iff.mpr (not_gives_of_blank hblank))]
      exact ih.iff ⟨fun h => ⟨.inl hblank, h⟩, And.right⟩
    · rename_i hvisible
      cases hread : readEntry (Text.stripped piece) with
      | error cause =>
        have hnot : ¬ IsReadable piece := by
          rintro (hblank | ⟨key, value, hgives⟩)
          · exact hvisible ((Text.isEmpty_stripped_iff piece).mpr hblank)
          · rw [readEntry_eq_ok_iff.mpr hgives] at hread
            cases hread
        exact .of_error (fun h => hnot h.1) _ _
      | ok e =>
        have hgives : Gives piece e.1 e.2 := readEntry_eq_ok_iff.mp hread
        have hpiece : GivesIff (.ok e : Except Failure _) (IsReadable piece) e := .of_ok (.inr ⟨_, _, hgives⟩) e
        rw [List.filterMap_cons_some (tag?_eq_some_iff.mpr hgives)]
        exact hpiece.bind (ih.map (e :: ·))

theorem parse_gives (text : String) :
    GivesIff (parse text) (∀ piece ∈ Text.pieces ',' text.toList, IsReadable piece)
      (NameMap.ofList ((Text.pieces ',' text.toList).filterMap tag?)) :=
  (readPieces_gives _).map NameMap.ofList

theorem exists_last {α : Type} {p : α → Prop} {l : List α} (h : ∃ a ∈ l, p a) :
    ∃ before a after, l = before ++ a :: after ∧ p a ∧ ∀ b ∈ after, ¬ p b := by
  induction l with
  | nil => simp at h
  | cons first rest ih =>
    by_cases hrest : ∃ a ∈ rest, p a
    · obtain ⟨before, a, after, rfl, ha, hafter⟩ := ih hrest
      exact ⟨first :: before, a, after, rfl, ha, hafter⟩
    · obtain ⟨a, hmem, ha⟩ := h
      rcases List.mem_cons.mp hmem with rfl | hmem
      · exact ⟨[], a, rest, rfl, ha, fun b hb hp => hrest ⟨b, hb, hp⟩⟩
      · exact absurd ⟨a, hmem, ha⟩ hrest

theorem LastGives.get? {pieces : List (List Char)} {key value : String} (h : LastGives pieces key value) :
    (NameMap.ofList (pieces.filterMap tag?)).get? key = some value := by
  obtain ⟨before, piece, after, rfl, hgives, hlast⟩ := h
  rw [List.filterMap_append, List.filterMap_cons_some (tag?_eq_some_iff.mpr hgives)]
  apply NameMap.get?_ofList_of_last
  rintro e he rfl
  obtain ⟨other, hother, hentry⟩ := List.mem_filterMap.mp he
  exact hlast other hother e.2 (tag?_eq_some_iff.mp hentry)

theorem get?_ofList_tags {pieces : List (List Char)} {key value : String} :
    (NameMap.ofList (pieces.filterMap tag?)).get? key = some value ↔ LastGives pieces key value := by
  constructor
  · intro h
    -- Some piece gives the key this value, but only of the last one that gives the key is it known which value counts.
    obtain ⟨piece, hmem, hentry⟩ := List.mem_filterMap.mp (NameMap.mem_of_get?_ofList h)
    obtain ⟨before, last, after, hpieces, ⟨value', hgives⟩, hafter⟩ :=
      exists_last (p := fun piece => ∃ value, Gives piece key value) ⟨piece, hmem, value, tag?_eq_some_iff.mp hentry⟩
    have hlast : LastGives pieces key value' :=
      ⟨before, last, after, hpieces, hgives, fun other hother v hother' => hafter other hother ⟨v, hother'⟩⟩
    rw [hlast.get?] at h
    cases h
    exact hlast
  · exact LastGives.get?

theorem isTag_of_parse {text : String} {tags : Tags} (h : parse text = .ok tags) :
    ∀ e ∈ tags.entries, IsTag e.1 e.2 := by
  obtain ⟨-, rfl⟩ := (parse_gives text tags).mp h
  intro e he
  have hlast := get?_ofList_tags.mp (NameMap.get?_eq_some_iff.mpr he)
  obtain ⟨before, piece, after, hpieces, hgives, -⟩ := hlast
  have hpiece : piece ∈ Text.pieces ',' text.toList := by
    rw [hpieces]
    exact List.mem_append_right before List.mem_cons_self
  exact hgives.isTag (Text.not_mem_of_mem_pieces hpiece)

theorem parse_append (a b : String) :
    parse (a ++ "," ++ b) = do
      let lower ← parse a
      let upper ← parse b
      return lower.overlay upper := by
  have htext : (a ++ "," ++ b).toList = a.toList ++ ',' :: b.toList := by simp
  rw [parse_eq, htext, Text.pieces_append_cons, readPieces_append, parse_eq, parse_eq]
  cases readPieces (Text.pieces ',' a.toList) with
  | error cause => rfl
  | ok l =>
    cases readPieces (Text.pieces ',' b.toList) with
    | error cause => rfl
    | ok r => exact congrArg Except.ok (NameMap.ofList_append l r)

theorem overlays_cons [SpanWords] {text : String} (h : (Given.tags text).IsReadable) (rest : List String) :
    ((text :: rest).filterMap Given.tags?).foldl NameMap.overlay NameMap.empty =
      ((Given.tags? text).getD NameMap.empty).overlay
        ((rest.filterMap Given.tags?).foldl NameMap.overlay NameMap.empty) := by
  obtain ⟨tags, htags⟩ := Option.isSome_iff_exists.mp h
  rw [List.filterMap_cons_some htags, List.foldl_cons, NameMap.foldl_overlay, NameMap.empty_overlay, htags,
    Option.getD_some]

theorem parse_intercalate_gives [SpanWords] (texts : List String) :
    GivesIff (parse (",".intercalate texts)) (∀ text ∈ texts, (Given.tags text).IsReadable)
      ((texts.filterMap Given.tags?).foldl NameMap.overlay NameMap.empty) := by
  induction texts with
  | nil => exact .of_ok nofun _
  | cons text rest ih =>
    have htext : GivesIff (parse text) (Given.tags text).IsReadable ((Given.tags? text).getD NameMap.empty) :=
      .of_toOption _ _
    rw [List.forall_mem_cons]
    cases rest with
    | nil =>
      rw [String.intercalate_singleton]
      refine (htext.eq_of fun h => ?_).iff (by simp)
      rw [overlays_cons h]
      rfl
    | cons next others =>
      rw [String.intercalate_cons_cons, parse_append]
      exact (htext.bind (ih.map _)).eq_of fun h => (overlays_cons h.1 _).symm

theorem pieces_render {entries : List (String × String)} (hne : entries ≠ []) (h : ∀ e ∈ entries, IsTag e.1 e.2) :
    Text.pieces ',' (render entries).toList = entries.map fun e => e.1.toList ++ '=' :: e.2.toList := by
  have htext : (render entries).toList = [','].intercalate (entries.map fun e => e.1.toList ++ '=' :: e.2.toList) := by
    simp [render, String.toList_intercalate, Function.comp_def]
  rw [htext, Text.pieces_intercalate]
  · simpa using hne
  · rw [List.forall_mem_map]
    intro e he
    simp [(h e he).key_plain.1, (h e he).value_plain]

theorem parse_render {tags : Tags} (h : ∀ e ∈ tags.entries, IsTag e.1 e.2) {entries : List (String × String)}
    (hperm : entries.Perm tags.entries) : parse (render entries) = .ok tags := by
  have htags : ∀ e ∈ entries, IsTag e.1 e.2 := fun e he => h e (hperm.mem_iff.mp he)
  rcases eq_or_ne entries [] with rfl | hne
  · rw [← NameMap.ofList_of_perm hperm]
    rfl
  · have hentries : entries.filterMap (tag? ∘ fun e => e.1.toList ++ '=' :: e.2.toList) = entries := by
      calc entries.filterMap (tag? ∘ fun e => e.1.toList ++ '=' :: e.2.toList)
          = entries.filterMap some := List.filterMap_congr fun e he => tag?_eq_some_iff.mpr (htags e he).gives
        _ = entries := List.filterMap_some
    apply (parse_gives _ _).mpr
    rw [pieces_render hne htags, List.forall_mem_map, List.filterMap_map, hentries, NameMap.ofList_of_perm hperm]
    exact ⟨fun e he => .inr ⟨_, _, (htags e he).gives⟩, rfl⟩

theorem tags?_eq_some_iff {text : String} {tags : Tags} : Given.tags? text = some tags ↔ parse text = .ok tags := by
  rw [Given.tags?]
  cases parse text <;> simp [Except.toOption]

theorem isReadable_intercalate_iff [SpanWords] (texts : List String) :
    (Given.tags (",".intercalate texts)).IsReadable ↔ ∀ text ∈ texts, (Given.tags text).IsReadable := by
  have hgives := parse_intercalate_gives texts
  constructor
  · intro h
    obtain ⟨tags, htags⟩ := Option.isSome_iff_exists.mp h
    exact ((hgives tags).mp (tags?_eq_some_iff.mp htags)).1
  · intro h
    exact Option.isSome_iff_exists.mpr ⟨_, tags?_eq_some_iff.mpr ((hgives _).mpr ⟨h, rfl⟩)⟩

theorem overlays_intercalate [SpanWords] {texts : List String} (h : ∀ text ∈ texts, (Given.tags text).IsReadable)
    (tags : Tags) :
    ([",".intercalate texts].filterMap Given.tags?).foldl NameMap.overlay tags =
      (texts.filterMap Given.tags?).foldl NameMap.overlay tags := by
  have hread := tags?_eq_some_iff.mpr ((parse_intercalate_gives texts _).mpr ⟨h, rfl⟩)
  rw [List.filterMap_cons_some hread, NameMap.foldl_overlay tags (texts.filterMap Given.tags?)]
  rfl

theorem apply_intercalate [SpanWords] (a : CommandLine.RunArguments) (texts : List String) (c c' : Config) :
    { a with tags := texts }.apply c = .ok c' ↔ { a with tags := [",".intercalate texts] }.apply c = .ok c' := by
  have hgiven : (∀ v ∈ CommandLine.RunArguments.given { a with tags := [",".intercalate texts] }, v.IsReadable) ↔
      ∀ v ∈ CommandLine.RunArguments.given { a with tags := texts }, v.IsReadable := by
    simp only [CommandLine.RunArguments.given, List.forall_mem_append, List.forall_mem_map, List.forall_mem_singleton,
      isReadable_intercalate_iff]
  rw [CommandLine.RunArguments.apply_gives, CommandLine.RunArguments.apply_gives, hgiven]
  apply and_congr_right
  intro hread
  have htexts : ∀ text ∈ texts, (Given.tags text).IsReadable := by
    simp only [CommandLine.RunArguments.given, List.forall_mem_append, List.forall_mem_map] at hread
    exact hread.1.1.2
  simp only [CommandLine.RunArguments.applied, overlays_intercalate htexts]

/-- A list of tags can be read exactly if each of its pieces is blank or is a tag, and of each key the last tag counts.
What is read is what a list can say, and all that a list can say is read back from any list that says it. Two lists read
one after the other, or given to a command as two arguments, are as one list. -/
theorem parse_reads_lists [SpanWords] :
    (∀ text : String,
      let pieces := text.toList.splitOn ','
      ((∃ tags, parse text = .ok tags) ↔ ∀ piece ∈ pieces, IsReadable piece) ∧
        ∀ tags, parse text = .ok tags →
          (∀ key value, tags.get? key = some value ↔ LastGives pieces key value) ∧
            (∀ e ∈ tags.entries, IsTag e.1 e.2) ∧
            ∀ entries, entries.Perm tags.entries → parse (render entries) = .ok tags) ∧
      (∀ tags : Tags, (∀ e ∈ tags.entries, IsTag e.1 e.2) →
        ∀ entries, entries.Perm tags.entries → parse (render entries) = .ok tags) ∧
      (∀ a b : String, parse (a ++ "," ++ b) = do
        let lower ← parse a
        let upper ← parse b
        return lower.overlay upper) ∧
      ∀ (a : CommandLine.RunArguments) (texts : List String) (c c' : Config),
        { a with tags := texts }.apply c = .ok c' ↔ { a with tags := [",".intercalate texts] }.apply c = .ok c' := by
  refine ⟨?_, fun tags h entries hperm => parse_render h hperm, parse_append, apply_intercalate⟩
  intro text pieces
  have hgives := parse_gives text
  rw [Text.pieces_eq_splitOn] at hgives
  refine ⟨⟨?_, ?_⟩, ?_⟩
  · rintro ⟨tags, htags⟩
    exact ((hgives tags).mp htags).1
  · intro h
    exact ⟨_, (hgives _).mpr ⟨h, rfl⟩⟩
  · intro tags htags
    have hshape := isTag_of_parse htags
    obtain ⟨-, rfl⟩ := (hgives tags).mp htags
    exact ⟨fun key value => get?_ofList_tags, hshape, fun entries hperm => parse_render hshape hperm⟩

theorem parse_reads_lists_with_blanks :
    let text := "host=web-1,\u2003region = eu=west ,, host=web-2 ,note="
    let tags : Tags := .ofList [("host", "web-2"), ("region", "eu=west"), ("note", "")]
    parse text = .ok tags ∧ parse (render tags.entries.reverse) = .ok tags ∧
      parse (text ++ "," ++ "note=x") = .ok (tags.insert "note" "x") := by
  intro text tags
  obtain ⟨hlist, -, happend, -⟩ := parse_reads_lists
  have htags : parse text = .ok tags := by decide +kernel
  have hnote : parse "note=x" = .ok (.ofList [("note", "x")]) := by decide +kernel
  refine ⟨htags, ((hlist text).2 tags htags).2.2 _ (List.reverse_perm _), ?_⟩
  rw [happend, htags, hnote]
  rfl

end Tags

end MetricReporting
