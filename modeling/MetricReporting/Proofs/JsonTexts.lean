import Mathlib.Tactic.SplitIfs
import MetricReporting.Json.Reader
import MetricReporting.Json.Text

namespace MetricReporting.Json

variable {α : Type}

def Closes (tail : List Char) : Prop := ∀ c ∈ tail.head?, c = ',' ∨ c = '\x7d'

def Reads (read : List Char → Read α) (text : String) (value : α) : Prop :=
  ∀ tail, Closes tail → read (text.toList ++ tail) = .ok (value, tail)

theorem closes_nil : Closes [] := by
  intro c hc
  cases hc

theorem closes_comma (tail : List Char) : Closes (',' :: tail) := by
  intro c hc
  cases hc
  exact .inl rfl

theorem closes_brace (tail : List Char) : Closes ('\x7d' :: tail) := by
  intro c hc
  cases hc
  exact .inr rfl

theorem Reads.document {read : List Char → Read α} {text : String} {value : α} (h : Reads read text value) :
    document read text = .ok value := by
  have hread := h [] closes_nil
  rw [List.append_nil] at hread
  rw [Json.document, hread]
  rfl

section Strings

theorem hexWord?_of_control (n : Nat) (h : n < 32) : hexWord? '0' '0' (hexDigit (n / 16)) (hexDigit n) = some n := by
  have hall : ∀ k : Fin 32, hexWord? '0' '0' (hexDigit (k / 16)) (hexDigit k) = some k.val := by decide
  exact hall ⟨n, h⟩

theorem stringChars_of_plain (c : Char) (tail : List Char) (hquote : c ≠ '"') (hslash : c ≠ '\\') (h : ¬ c.toNat < 32) :
    stringChars (c :: tail) = prepend c (stringChars tail) := by
  rw [stringChars.eq_def]
  simp [hslash, h]

theorem stringChars_of_control (n : Nat) (h : n < 32) (tail : List Char) :
    stringChars ('\\' :: 'u' :: '0' :: '0' :: hexDigit (n / 16) :: hexDigit n :: tail) =
      prepend (Char.ofNat n) (stringChars tail) := by
  have hlow : isLowSurrogate n = false := by
    simp [isLowSurrogate]
    omega
  have hhigh : isHighSurrogate n = false := by
    simp [isHighSurrogate]
    omega
  rw [stringChars.eq_def]
  simp [hexWord?_of_control n h, hlow, hhigh]

theorem stringChars_escaped (c : Char) (tail : List Char) :
    stringChars (escaped c ++ tail) = prepend c (stringChars tail) := by
  unfold escaped
  split_ifs with hquote hslash hnewline hreturn htab hback hfeed hcontrol
  · subst hquote
    rfl
  · subst hslash
    rfl
  · subst hnewline
    rfl
  · subst hreturn
    rfl
  · subst htab
    rfl
  · subst hback
    rfl
  · subst hfeed
    rfl
  · have h := stringChars_of_control c.toNat hcontrol tail
    rw [Char.ofNat_toNat] at h
    exact h
  · exact stringChars_of_plain c tail hquote hslash hcontrol

theorem stringChars_quoted (cs tail : List Char) :
    stringChars (cs.flatMap escaped ++ '"' :: tail) = .ok (cs, tail) := by
  induction cs with
  | nil => simp [stringChars]
  | cons c rest ih =>
    rw [List.flatMap_cons, List.append_assoc, stringChars_escaped, ih]
    rfl

theorem toList_quote (s : String) : (quote s).toList = '"' :: (s.toList.flatMap escaped ++ ['"']) := by
  simp [quote]

theorem quote_append (s : String) (tail : List Char) :
    (quote s).toList ++ tail = '"' :: (s.toList.flatMap escaped ++ '"' :: tail) := by
  simp [toList_quote]

theorem reads_quote [FloatFormat] (s : String) : Reads string (quote s) s := by
  intro tail _
  rw [quote_append, string, skipSpace, List.dropWhile_cons_of_neg (by decide)]
  simp [stringChars_quoted, Except.map]

end Strings

section Objects

def memberText (m : String × String) : List Char := (quote m.1).toList ++ ':' :: m.2.toList

def laterMembers (ms : List (String × String)) : List Char := ms.flatMap fun m => ',' :: memberText m

theorem length_le_laterMembers (ms : List (String × String)) : ms.length ≤ (laterMembers ms).length := by
  induction ms with
  | nil => simp [laterMembers]
  | cons m rest ih =>
    simp only [laterMembers, List.flatMap_cons, List.length_append, List.length_cons] at ih ⊢
    omega

theorem toList_intercalate_comma (m : String × String) (ms : List (String × String)) :
    (",".intercalate ((m :: ms).map fun m => quote m.1 ++ ":" ++ m.2)).toList = memberText m ++ laterMembers ms := by
  induction ms generalizing m with
  | nil => simp [memberText, laterMembers]
  | cons next rest ih =>
    have hrest := ih next
    rw [List.map_cons] at hrest
    rw [List.map_cons, List.map_cons, String.intercalate_cons_cons, String.toList_append, hrest]
    simp [memberText, laterMembers]

theorem toList_objectText_cons (m : String × String) (ms : List (String × String)) :
    (objectText (m :: ms)).toList = '\x7b' :: (memberText m ++ laterMembers ms ++ ['\x7d']) := by
  rw [objectText, String.toList_append, String.toList_append, toList_intercalate_comma]
  simp

theorem nextKey_of_quote (name : String) (tail : List Char) :
    nextKey true ((quote name).toList ++ ':' :: tail) = .ok (.key name (':' :: tail)) := by
  rw [quote_append, nextKey, skipSpace, List.dropWhile_cons_of_neg (by decide)]
  simp [nextKey.keyOf, stringChars_quoted, Except.map]

theorem nextKey_of_comma (name : String) (tail : List Char) :
    nextKey false (',' :: ((quote name).toList ++ ':' :: tail)) = .ok (.key name (':' :: tail)) := by
  rw [quote_append, nextKey, skipSpace, List.dropWhile_cons_of_neg (by decide)]
  simp [skipSpace, isSpace, nextKey.keyOf, stringChars_quoted, Except.map]

theorem closes_laterMembers (ms : List (String × String)) (tail : List Char) :
    Closes (laterMembers ms ++ '\x7d' :: tail) := by
  cases ms with
  | nil => exact closes_brace tail
  | cons m rest => exact closes_comma _

variable {value : List Char → Read α} {write : α → String}

theorem members_of_key {first : Bool} {cs rest after tail : List Char} {name : String} {v : α} {fuel : Nat}
    {others : List (String × α)} (hkey : nextKey first cs = .ok (.key name (':' :: rest)))
    (hvalue : value rest = .ok (v, after)) (hothers : members value fuel false after = .ok (others, tail)) :
    members value (fuel + 1) first cs = .ok ((name, v) :: others, tail) := by
  have hcolon : afterColon (':' :: rest) = .ok rest := rfl
  simp only [members, hkey, hcolon, hvalue, hothers, bind, Except.bind, pure, Except.pure]

theorem members_of_laterMembers (l : List (String × α)) (h : ∀ e ∈ l, Reads value (write e.2) e.2) (fuel : Nat)
    (hfuel : l.length < fuel) (tail : List Char) :
    members value fuel false (laterMembers (l.map fun e => (e.1, write e.2)) ++ '\x7d' :: tail) = .ok (l, tail) := by
  induction l generalizing fuel with
  | nil =>
    obtain ⟨fuel, rfl⟩ : ∃ n, fuel = n + 1 := ⟨fuel - 1, by simp at hfuel; omega⟩
    rfl
  | cons e rest ih =>
    obtain ⟨hfirst, hrest⟩ := List.forall_mem_cons.mp h
    rw [List.length_cons] at hfuel
    obtain ⟨fuel, rfl⟩ : ∃ n, fuel = n + 1 := ⟨fuel - 1, by omega⟩
    have hothers := ih hrest fuel (by omega)
    have hvalue := hfirst _ (closes_laterMembers (rest.map fun e => (e.1, write e.2)) tail)
    have hmember := members_of_key (nextKey_of_comma e.1 _) hvalue hothers
    simpa [laterMembers, memberText] using hmember

theorem reads_objectText [FloatFormat] (l : List (String × α)) (h : ∀ e ∈ l, Reads value (write e.2) e.2) :
    Reads (object value) (objectText (l.map fun e => (e.1, write e.2))) l := by
  intro tail _
  cases l with
  | nil =>
    have htext : (objectText []).toList = ['\x7b', '\x7d'] := by decide
    rw [List.map_nil, htext]
    rfl
  | cons e rest =>
    obtain ⟨hfirst, hrest⟩ := List.forall_mem_cons.mp h
    have hlength := length_le_laterMembers (rest.map fun e => (e.1, write e.2))
    rw [List.length_map] at hlength
    have hothers := members_of_laterMembers rest hrest
    have hvalue := hfirst _ (closes_laterMembers (rest.map fun e => (e.1, write e.2)) tail)
    rw [List.map_cons, toList_objectText_cons]
    simp only [object, skipSpace, List.cons_append]
    rw [List.dropWhile_cons_of_neg (by decide)]
    simp only [memberText, List.append_assoc, List.cons_append, List.nil_append]
    refine members_of_key (nextKey_of_quote e.1 _) hvalue (hothers _ ?_ tail)
    simp only [List.length_append, List.length_cons]
    omega

end Objects

end MetricReporting.Json
