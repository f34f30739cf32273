import MetricReporting.Proofs.TomlStrings
import MetricReporting.Toml.Document

namespace MetricReporting

namespace Toml

section Values

theorem writeString_eq_cons (s : String) :
    ∃ c rest, (writeString s).toList = c :: rest ∧ (c = '"' ∨ c = '\'') := by
  rw [writeString, String.toList_ofList]
  cases Quoting.of s.toList with
  | basic => exact ⟨_, _, rfl, .inl rfl⟩
  | literal => exact ⟨_, _, rfl, .inr rfl⟩
  | basicLines => exact ⟨_, _, rfl, .inl rfl⟩
  | literalLines => exact ⟨_, _, rfl, .inr rfl⟩

theorem value_of_quote {c : Char} (hquote : c = '"' ∨ c = '\'') (levels : Nat) (cs : List Char) :
    value (levels + 1) (c :: cs) = (string (c :: cs)).map fun p => (.text p.1, p.2) := by
  rcases hquote with rfl | rfl <;> rfl

theorem value_writeString (levels : Nat) (s : String) (tail : List Char) (hdouble : leading '"' tail = 0)
    (hsingle : leading '\'' tail = 0) :
    value (levels + 1) ((writeString s).toList ++ tail) = some (.text s, tail) := by
  have hstring := string_writeString s hdouble hsingle
  obtain ⟨c, rest, htext, hquote⟩ := writeString_eq_cons s
  rw [htext, List.cons_append] at hstring ⊢
  rw [value_of_quote hquote, hstring]
  rfl

theorem skipSpace_writeString (s : String) (tail : List Char) :
    skipSpace ((writeString s).toList ++ tail) = (writeString s).toList ++ tail := by
  obtain ⟨c, rest, htext, hquote⟩ := writeString_eq_cons s
  rw [htext]
  rcases hquote with rfl | rfl <;> rfl

theorem items_cons_of_space {c : Char} (hspace : c = ' ' ∨ c = '\n') (item : Reader Value) (fuel : Nat)
    (cs : List Char) : items item fuel (c :: cs) = items item fuel cs := by
  have hskip : skipSpace (c :: cs) = skipSpace cs := by
    rcases hspace with rfl | rfl <;> rfl
  cases fuel with
  | zero => rfl
  | succ fuel => rw [items, items, hskip]

theorem items_writeString_comma (levels fuel : Nat) (s : String) (tail : List Char) :
    items (value (levels + 1)) (fuel + 1) ((writeString s).toList ++ ',' :: tail) =
      (items (value (levels + 1)) fuel tail).map fun p => (.text s :: p.1, p.2) := by
  have hvalue := value_writeString levels s (',' :: tail) rfl rfl
  have hcomma : skipSpace (',' :: tail) = ',' :: tail := rfl
  obtain ⟨c, rest, htext, hquote⟩ := writeString_eq_cons s
  rw [items, skipSpace_writeString]
  rw [htext, List.cons_append] at hvalue ⊢
  rcases hquote with rfl | rfl
  all_goals
    simp [hvalue, hcomma]
    cases items (value (levels + 1)) fuel tail <;> rfl

theorem items_writeString_bracket (levels fuel : Nat) (s : String) (tail : List Char) :
    items (value (levels + 1)) (fuel + 1) ((writeString s).toList ++ ']' :: tail) = some ([.text s], tail) := by
  have hvalue := value_writeString levels s (']' :: tail) rfl rfl
  have hbracket : skipSpace (']' :: tail) = ']' :: tail := rfl
  obtain ⟨c, rest, htext, hquote⟩ := writeString_eq_cons s
  rw [items, skipSpace_writeString]
  rw [htext, List.cons_append] at hvalue ⊢
  rcases hquote with rfl | rfl
  all_goals simp [hvalue, hbracket]

def spreadItem (text : String) : List Char := "    ".toList ++ (writeString text).toList ++ ",\n".toList

theorem items_spread (levels : Nat) (texts : List String) (tail : List Char) {fuel : Nat}
    (hfuel : texts.length < fuel) :
    items (value (levels + 1)) fuel (texts.flatMap spreadItem ++ ']' :: tail) = some (texts.map .text, tail) := by
  induction texts generalizing fuel with
  | nil =>
    obtain ⟨n, rfl⟩ : ∃ n, fuel = n + 1 := ⟨fuel - 1, by omega⟩
    rfl
  | cons text rest ih =>
    rw [List.length_cons] at hfuel
    obtain ⟨n, rfl⟩ : ∃ n, fuel = n + 1 := ⟨fuel - 1, by omega⟩
    have hless : rest.length < n := by omega
    have hrest := ih hless
    have htext : (text :: rest).flatMap spreadItem ++ ']' :: tail = ' ' :: ' ' :: ' ' :: ' ' ::
        ((writeString text).toList ++ ',' :: '\n' :: (rest.flatMap spreadItem ++ ']' :: tail)) := by
      simp [spreadItem]
    rw [htext]
    iterate 4 rw [items_cons_of_space (.inl rfl)]
    rw [items_writeString_comma, items_cons_of_space (.inr rfl), hrest]
    rfl

theorem toList_writeSpreadList (texts : List String) (h : 1 < texts.length) :
    (writeSpreadList texts).toList = '[' :: '\n' :: (texts.flatMap spreadItem ++ [']']) := by
  rw [writeSpreadList, if_neg (by omega)]
  simp only [String.toList_append, String.toList_join, List.flatMap_map]
  rfl

theorem length_le_spread (texts : List String) : texts.length ≤ (texts.flatMap spreadItem).length := by
  induction texts with
  | nil => simp
  | cons text rest ih =>
    simp only [List.flatMap_cons, List.length_cons, List.length_append, spreadItem] at ih ⊢
    have hindent : "    ".toList.length = 4 := rfl
    omega

theorem value_writeSpreadList (levels : Nat) (texts : List String) (tail : List Char) :
    value (levels + 2) ((writeSpreadList texts).toList ++ tail) = some (.list (texts.map .text), tail) := by
  have hvalue (cs : List Char) : value (levels + 2) ('[' :: cs) =
      (items (value (levels + 1)) (cs.length + 1) cs).map fun p => (.list p.1, p.2) := rfl
  rcases texts with - | ⟨text, - | ⟨second, rest⟩⟩
  · rfl
  · have htext : (writeSpreadList [text]).toList ++ tail = '[' :: ((writeString text).toList ++ ']' :: tail) := by
      simp [writeSpreadList, writeList]
    rw [htext, hvalue, items_writeString_bracket]
    rfl
  · have hlength := length_le_spread (text :: second :: rest)
    rw [toList_writeSpreadList _ (by simp)]
    simp only [List.cons_append, List.append_assoc, List.nil_append]
    rw [hvalue, items_cons_of_space (.inr rfl), items_spread]
    · rfl
    · simp only [List.length_cons, List.length_append] at hlength ⊢
      omega

end Values

section Entries

theorem get?_of_not_mem {entries : Entries} {name : String} (h : name ∉ entries.map (·.1)) :
    entries.get? name = none := by
  have hfind : entries.find? (·.1 == name) = none := by
    rw [List.find?_eq_none]
    intro e he heq
    exact h (List.mem_map.mpr ⟨e, he, by simpa using heq⟩)
  rw [Entries.get?, hfind]
  rfl

theorem put_of_not_mem {entries : Entries} {name : String} (h : name ∉ entries.map (·.1)) (v : Value) :
    entries.put name v = entries ++ [(name, v)] := by
  have hany : entries.any (·.1 == name) = false := by
    rw [List.any_eq_false]
    intro e he heq
    exact h (List.mem_map.mpr ⟨e, he, by simpa using heq⟩)
  simp [Entries.put, hany]

theorem define_new {entries : Entries} {name : String} (h : name ∉ entries.map (·.1)) (v : Value) :
    entries.define [] name v = some (entries ++ [(name, v)]) := by
  simp [Entries.define, get?_of_not_mem h, put_of_not_mem h]

theorem openTable_new {entries : Entries} {name : String} (h : name ∉ entries.map (·.1)) :
    entries.openTable [] name = some (entries ++ [(name, .table .header [])]) := by
  simp [Entries.openTable, Entries.modifyAt, get?_of_not_mem h, put_of_not_mem h]

theorem get?_append_self {entries : Entries} {name : String} (h : name ∉ entries.map (·.1)) (v : Value) :
    Entries.get? (entries ++ [(name, v)]) name = some v := by
  have hfind := get?_of_not_mem h
  simp only [Entries.get?, Option.map_eq_none_iff] at hfind
  simp [Entries.get?, List.find?_append, hfind]

theorem put_append_self {entries : Entries} {name : String} (h : name ∉ entries.map (·.1)) (v w : Value) :
    Entries.put (entries ++ [(name, v)]) name w = entries ++ [(name, w)] := by
  have hkept : ∀ e ∈ entries, (if e.1 = name then (name, w) else e) = id e := by
    intro e he
    apply if_neg
    intro heq
    exact h (List.mem_map.mpr ⟨e, he, heq⟩)
  have hsame : entries.map (fun e => if e.1 = name then (name, w) else e) = entries := by
    rw [List.map_congr_left hkept, List.map_id]
  simp [Entries.put, hsame]

theorem modifyAt_last {entries : Entries} {name : String} (h : name ∉ entries.map (·.1)) (table : Entries)
    (edit : Entries → Option Entries) :
    Entries.modifyAt (entries ++ [(name, .table .header table)]) edit [name] =
      (edit table).map fun table => entries ++ [(name, .table .header table)] := by
  have hget := get?_append_self h (.table .header table)
  simp only [Entries.modifyAt, hget]
  cases edit table with
  | none => rfl
  | some table => simp [put_append_self h]

end Entries

section Lines

theorem skipBlanks_of_not_blank {c : Char} (h : isBlank c = false) (cs : List Char) :
    skipBlanks (c :: cs) = c :: cs := by
  simp [skipBlanks, h]

theorem keyParts_of_simpleKey {c d : Char} {cs rest after : List Char} {name : String} (hblank : isBlank c = false)
    (hkey : simpleKey (c :: cs) = some (name, rest)) (hrest : skipBlanks rest = d :: after) (hdot : d ≠ '.')
    (fuel : Nat) : keyParts (fuel + 1) (c :: cs) = some ([name], d :: after) := by
  simp [keyParts, skipBlanks_of_not_blank hblank, hkey, hrest, hdot]

theorem key_of_simpleKey {c d : Char} {cs rest after : List Char} {name : String} (hblank : isBlank c = false)
    (hkey : simpleKey (c :: cs) = some (name, rest)) (hrest : skipBlanks rest = d :: after) (hdot : d ≠ '.') :
    key (c :: cs) = some (([], name), d :: after) := by
  have hparts := keyParts_of_simpleKey hblank hkey hrest hdot 78
  have hfuel : depthLimit - 1 = 78 + 1 := rfl
  rw [key, hfuel, hparts]
  rfl

theorem writeKey_eq_cons (name : String) :
    ∃ c rest, (writeKey name).toList = c :: rest ∧ (c = '"' ∨ c = '\'' ∨ isBareKeyChar c = true) := by
  simp only [writeKey]
  split
  next hbare =>
    rw [Bool.and_eq_true, List.all_eq_true] at hbare
    cases hname : name.toList with
    | nil => simp [hname] at hbare
    | cons c rest =>
      rw [hname] at hbare
      exact ⟨c, rest, rfl, .inr (.inr (hbare.2 c List.mem_cons_self))⟩
  next =>
    split_ifs
    · exact ⟨_, _, String.toList_ofList, .inl rfl⟩
    · exact ⟨_, _, String.toList_ofList, .inr (.inl rfl)⟩
    · exact ⟨_, _, String.toList_ofList, .inl rfl⟩

theorem ne_of_begins_key {c : Char} (h : c = '"' ∨ c = '\'' ∨ isBareKeyChar c = true) :
    isBlank c = false ∧ c ≠ '[' ∧ c ≠ '#' ∧ c ≠ '\n' ∧ c ≠ '\r' := by
  rcases h with rfl | rfl | h
  · decide
  · decide
  · refine ⟨?_, ?_, ?_, ?_, ?_⟩
    · rw [isBlank, Bool.or_eq_false_iff, beq_eq_false_iff_ne, beq_eq_false_iff_ne]
      constructor <;> rintro rfl <;> exact absurd h (by decide)
    all_goals rintro rfl; exact absurd h (by decide)

structure Writes (text : String) (v : Value) : Prop where
  begins : ∃ c rest, text.toList = c :: rest ∧ isBlank c = false
  reads : ∀ tail, value depthLimit (text.toList ++ '\n' :: tail) = some (v, '\n' :: tail)

theorem writes_writeString (s : String) : Writes (writeString s) (.text s) where
  begins := by
    obtain ⟨c, rest, htext, hquote⟩ := writeString_eq_cons s
    refine ⟨c, rest, htext, ?_⟩
    rcases hquote with rfl | rfl <;> rfl
  reads tail := value_writeString 79 s _ rfl rfl

theorem writes_writeSpreadList (texts : List String) :
    Writes (writeSpreadList texts) (.list (texts.map .text)) where
  begins := by
    refine ⟨'[', (writeSpreadList texts).toList.tail, ?_, rfl⟩
    unfold writeSpreadList writeList
    split <;> simp
  reads tail := value_writeSpreadList 78 texts _

theorem writes_flag (b : Bool) : Writes (if b then "true" else "false") (.flag b) where
  begins := by
    cases b
    · exact ⟨'f', _, rfl, rfl⟩
    · exact ⟨'t', _, rfl, rfl⟩
  reads tail := by
    cases b <;> rfl

def lineText (name text : String) : List Char := (writeKey name).toList ++ " = ".toList ++ text.toList ++ ['\n']

theorem length_le_lineTexts (l : List (String × String × Value)) :
    l.length ≤ (l.flatMap fun e => lineText e.1 e.2.1).length := by
  induction l with
  | nil => simp
  | cons e rest ih =>
    simp only [List.flatMap_cons, List.length_cons, List.length_append, lineText, List.length_nil] at ih ⊢
    omega

theorem pair_lineText {text : String} {v : Value} (h : Writes text v) (name : String) (tail : List Char) :
    pair (value depthLimit) (lineText name text ++ tail) = some (([], name), v, '\n' :: tail) := by
  obtain ⟨c, cs, hname, hc⟩ := writeKey_eq_cons name
  obtain ⟨d, ds, htext, hd⟩ := h.begins
  have hline : lineText name text ++ tail =
      (writeKey name).toList ++ ' ' :: '=' :: ' ' :: (text.toList ++ '\n' :: tail) := by
    simp [lineText]
  have hend : ∀ c ∈ (' ' :: '=' :: ' ' :: (text.toList ++ '\n' :: tail)).head?, isBareKeyChar c = false := by
    intro c hc
    cases hc
    decide
  have hsimple := simpleKey_writeKey name hend
  rw [hline]
  rw [hname, List.cons_append] at hsimple ⊢
  have hkey := key_of_simpleKey (ne_of_begins_key hc).1 hsimple (d := '=') rfl (by decide)
  have hvalue : skipBlanks (' ' :: (text.toList ++ '\n' :: tail)) = text.toList ++ '\n' :: tail := by
    rw [htext]
    exact skipBlanks_of_not_blank hd _
  have hafter : after '=' ('=' :: ' ' :: (text.toList ++ '\n' :: tail)) = some (' ' :: (text.toList ++ '\n' :: tail)) :=
    rfl
  simp [pair, hkey, hafter, hvalue, h.reads]

namespace Draft

theorem readLines_end (fuel : Nat) (d : Draft) : readLines (fuel + 1) d [] = some d := rfl

theorem readLines_newline (fuel : Nat) (d : Draft) (cs : List Char) :
    readLines (fuel + 1) d ('\n' :: cs) = readLines fuel d cs := rfl

theorem readLines_lineText {text : String} {v : Value} (h : Writes text v) {d : Draft} {name : String}
    {root : Entries} (hroot : d.root.modifyAt (fun table => table.define [] name v) d.current = some root)
    (fuel : Nat) (tail : List Char) :
    readLines (fuel + 1) d (lineText name text ++ tail) = readLines fuel { d with root } tail := by
  have hpair := pair_lineText h name tail
  obtain ⟨c, cs, hname, hc⟩ := writeKey_eq_cons name
  obtain ⟨hblank, hbracket, hhash, hnewline, hreturn⟩ := ne_of_begins_key hc
  have hline : ∃ rest, lineText name text ++ tail = c :: rest := ⟨_, by simp [lineText, hname]; rfl⟩
  obtain ⟨rest, hline⟩ := hline
  rw [hline] at hpair ⊢
  have hfinish : finishLine (c :: rest) = none := by
    simp [finishLine, skipBlanks_of_not_blank hblank, skipComment, hhash, lineEnd_of_plain hnewline hreturn]
  have hread : d.readPair (c :: rest) = some ({ d with root }, tail) := by
    have hend : finishLine ('\n' :: tail) = some tail := rfl
    simp [readPair, hpair, hend, hroot]
  rw [readLines, skipBlanks_of_not_blank hblank]
  simp [hbracket, hfinish, hread]

theorem readLines_header {root : Entries} {name : String} (h : name ∉ root.map (·.1)) (path : List String)
    (fuel : Nat) (tail : List Char) :
    readLines (fuel + 1) ⟨root, path⟩ ('[' :: ((writeKey name).toList ++ ']' :: '\n' :: tail)) =
      readLines fuel ⟨root ++ [(name, .table .header [])], [name]⟩ tail := by
  obtain ⟨c, cs, hname, hc⟩ := writeKey_eq_cons name
  obtain ⟨hblank, hbracket, -⟩ := ne_of_begins_key hc
  have hend : ∀ c ∈ (']' :: '\n' :: tail).head?, isBareKeyChar c = false := by
    intro c hc
    cases hc
    decide
  have hsimple := simpleKey_writeKey name hend
  rw [hname, List.cons_append] at hsimple ⊢
  have hkey := key_of_simpleKey hblank hsimple (d := ']') rfl (by decide)
  have hread : readTable ⟨root, path⟩ (c :: (cs ++ ']' :: '\n' :: tail)) =
      some (⟨root ++ [(name, .table .header [])], [name]⟩, tail) := by
    have hafter : after ']' (']' :: '\n' :: tail) = some ('\n' :: tail) := rfl
    have hfinish : finishLine ('\n' :: tail) = some tail := rfl
    simp [readTable, hkey, hafter, hfinish, openTable_new h]
  rw [readLines, skipBlanks_of_not_blank rfl]
  simp [hbracket, hread]

/-- Lines one after the other, where nothing but the table `table` at the current path changes: each adds an entry to
it. The path leads to it through `place`. -/
theorem readLines_pairs {place : Entries → Entries} {path : List String}
    (hplace : ∀ table edit, (place table).modifyAt edit path = (edit table).map place)
    (l : List (String × String × Value)) (hwrites : ∀ e ∈ l, Writes e.2.1 e.2.2) (table : Entries)
    (hnames : (table.map (·.1) ++ l.map (·.1)).Nodup) {fuel : Nat} (hfuel : l.length ≤ fuel) (tail : List Char) :
    readLines fuel ⟨place table, path⟩ (l.flatMap (fun e => lineText e.1 e.2.1) ++ tail) =
      readLines (fuel - l.length) ⟨place (table ++ l.map fun e => (e.1, e.2.2)), path⟩ tail := by
  induction l generalizing table fuel with
  | nil => simp
  | cons e rest ih =>
    obtain ⟨name, text, v⟩ := e
    obtain ⟨hfirst, hrest⟩ := List.forall_mem_cons.mp hwrites
    rw [List.length_cons] at hfuel
    obtain ⟨n, rfl⟩ : ∃ n, fuel = n + 1 := ⟨fuel - 1, by omega⟩
    have hnew : name ∉ table.map (·.1) := by
      intro hmem
      exact (List.nodup_append.mp hnames).2.2 name hmem name (by simp) rfl
    have hroot : (place table).modifyAt (fun table => table.define [] name v) path =
        some (place (table ++ [(name, v)])) := by
      rw [hplace, define_new hnew]
      rfl
    have hnext : ((table ++ [(name, v)]).map (·.1) ++ rest.map (·.1)).Nodup := by
      simpa using hnames
    have hless : rest.length ≤ n := by omega
    have hdone := ih hrest _ hnext hless
    rw [List.flatMap_cons, List.append_assoc, readLines_lineText hfirst hroot, hdone, List.length_cons]
    simp

end Draft

end Lines

def Plain.value : Plain → Value
  | text s => .text s
  | flag b => .flag b
  | texts items => .list (items.map .text)

theorem writes_plain (v : Plain) : Writes (v.write writeSpreadList) v.value := by
  cases v with
  | text s => exact writes_writeString s
  | flag b => exact writes_flag b
  | texts items => exact writes_writeSpreadList items

namespace Sheet

def entries (s : Sheet) : Entries :=
  s.settings.map (fun e => (e.1, e.2.value)) ++ [(s.table, .table .header (s.rows.map fun e => (e.1, .text e.2)))]

structure HasDistinctKeys (s : Sheet) : Prop where
  settings : (s.settings.map (·.1)).Nodup
  table : s.table ∉ s.settings.map (·.1)
  rows : (s.rows.map (·.1)).Nodup

def lines (s : Sheet) : List (String × String × Value) :=
  s.settings.map fun e => (e.1, e.2.write writeSpreadList, e.2.value)

def rowLines (s : Sheet) : List (String × String × Value) := s.rows.map fun e => (e.1, writeString e.2, .text e.2)

variable {s : Sheet}

theorem names_lines (s : Sheet) : s.lines.map (·.1) = s.settings.map (·.1) := by
  rw [lines, List.map_map]
  rfl

theorem names_rowLines (s : Sheet) : s.rowLines.map (·.1) = s.rows.map (·.1) := by
  rw [rowLines, List.map_map]
  rfl

theorem entries_eq (s : Sheet) : s.entries =
    s.lines.map (fun e => (e.1, e.2.2)) ++ [(s.table, .table .header (s.rowLines.map fun e => (e.1, e.2.2)))] := by
  rw [entries, lines, rowLines, List.map_map, List.map_map]
  rfl

theorem toList_write (s : Sheet) : (s.write writeSpreadList).toList =
    s.lines.flatMap (fun e => lineText e.1 e.2.1) ++
      '\n' :: '[' :: ((writeKey s.table).toList ++
        ']' :: '\n' :: s.rowLines.flatMap fun e => lineText e.1 e.2.1) := by
  simp [write, lines, rowLines, writePair, lineText, String.toList_join, List.flatMap_map]

theorem parse?_write_eq (s : Sheet) : parse? (s.write writeSpreadList) =
    (Draft.readLines ((s.write writeSpreadList).toList.length + 1) {} (s.write writeSpreadList).toList).map (·.root) := by
  obtain ⟨c, cs, htext, hmark⟩ : ∃ c cs, (s.write writeSpreadList).toList = c :: cs ∧ c ≠ '\ufeff' := by
    rw [toList_write]
    cases s.lines with
    | nil => exact ⟨_, _, rfl, by decide⟩
    | cons e rest =>
      obtain ⟨c, cs, hname, hc⟩ := writeKey_eq_cons e.1
      refine ⟨c, _, by simp [lineText, hname]; rfl, ?_⟩
      rintro rfl
      exact absurd hc (by decide)
  simp [parse?, htext, hmark]

theorem parse?_write (h : s.HasDistinctKeys) : parse? (s.write writeSpreadList) = some s.entries := by
  have hlines : ∀ e ∈ s.lines, Writes e.2.1 e.2.2 := List.forall_mem_map.mpr fun e _ => writes_plain e.2
  have hrows : ∀ e ∈ s.rowLines, Writes e.2.1 e.2.2 := List.forall_mem_map.mpr fun e _ => writes_writeString e.2
  have htable : s.table ∉ (s.lines.map fun e => (e.1, e.2.2)).map (·.1) := by
    have hnames := s.names_lines
    rw [List.map_map]
    exact hnames ▸ h.table
  have hlength : s.lines.length + s.rowLines.length + 3 ≤ (s.write writeSpreadList).toList.length := by
    have hsettings := length_le_lineTexts s.lines
    have htexts := length_le_lineTexts s.rowLines
    rw [toList_write]
    simp only [List.length_append, List.length_cons]
    omega
  -- One line is read with each unit of fuel: the settings, the blank line, the header, and the rows.
  obtain ⟨spare, hspare⟩ : ∃ n, (s.write writeSpreadList).toList.length + 1 =
      n + 1 + s.rowLines.length + 1 + 1 + s.lines.length :=
    ⟨(s.write writeSpreadList).toList.length - s.lines.length - s.rowLines.length - 2, by omega⟩
  have hroot : ∀ (table : Entries) (edit : Entries → Option Entries),
      (id table).modifyAt edit [] = (edit table).map id := by
    intro table edit
    rw [Option.map_id]
    rfl
  have hsettings := Draft.readLines_pairs hroot s.lines hlines [] (by simpa [names_lines] using h.settings)
    (Nat.le_add_left s.lines.length (spare + 1 + s.rowLines.length + 1 + 1))
  have htexts := Draft.readLines_pairs (modifyAt_last htable) s.rowLines hrows []
    (by simpa [names_rowLines] using h.rows) (Nat.le_add_left s.rowLines.length (spare + 1)) []
  rw [List.append_nil, Nat.add_sub_cancel, Draft.readLines_end] at htexts
  have hread : Draft.readLines (spare + 1 + s.rowLines.length + 1 + 1 + s.lines.length) {}
      (s.lines.flatMap (fun e => lineText e.1 e.2.1) ++ '\n' :: '[' :: ((writeKey s.table).toList ++
        ']' :: '\n' :: s.rowLines.flatMap fun e => lineText e.1 e.2.1)) = some ⟨s.entries, [s.table]⟩ := by
    rw [entries_eq]
    refine (hsettings _).trans ?_
    rw [Nat.add_sub_cancel, Draft.readLines_newline]
    exact (Draft.readLines_header htable _ _ _).trans htexts
  rw [parse?_write_eq, hspare, toList_write, hread]
  rfl

end Sheet

end Toml

class LawfulToml [TomlFormat] : Prop where
  parse?_writeSpread {s : Toml.Sheet} :
    s.HasDistinctKeys → TomlFormat.parse? (TomlFormat.writeSpread s) = some s.entries

instance : LawfulToml where
  parse?_writeSpread := Toml.Sheet.parse?_write

end MetricReporting
