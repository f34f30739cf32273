import Mathlib.Tactic.SplitIfs
import MetricReporting.Toml.Writer

namespace MetricReporting.Toml

section Units

theorem hexValue?_digit (n : Nat) (h : n < 16) : hexValue? (Nat.digitChar n).toUpper = some n := by
  have hall : ∀ k : Fin 16, hexValue? (Nat.digitChar k).toUpper = some k.val := by decide
  exact hall ⟨n, h⟩

theorem codePoint_hexCode (n : Nat) (h : n < 256) (tail : List Char) :
    codePoint 4 ('0' :: '0' :: (Nat.digitChar (n / 16)).toUpper :: (Nat.digitChar (n % 16)).toUpper :: tail) =
      some ([Char.ofNat n], tail) := by
  have hzero : hexValue? '0' = some 0 := by decide
  have hhigh := hexValue?_digit (n / 16) (by omega)
  have hlow := hexValue?_digit (n % 16) (by omega)
  have hvalue : n / 16 * 16 + n % 16 = n := by omega
  have hvalid : n.isValidChar := .inl (by omega)
  simp [codePoint, hzero, hhigh, hlow, hvalue, hvalid]

theorem lineEnd_of_plain {c : Char} (hnewline : c ≠ '\n') (hreturn : c ≠ '\r') (tail : List Char) :
    lineEnd (c :: tail) = none := by
  simp [lineEnd, hnewline, hreturn]

theorem unit_plain {escapes lines : Bool} {c : Char} (hslash : escapes = true → c ≠ '\\') (hnewline : c ≠ '\n')
    (hprintable : isPrintable c = true) (tail : List Char) : unit escapes lines (c :: tail) = some ([c], tail) := by
  have hreturn : c ≠ '\r' := by
    rintro rfl
    cases hprintable
  have hescape : (c == '\\' && escapes) = false := by
    cases escapes <;> simp [hslash]
  simp [unit, hescape, lineEnd_of_plain hnewline hreturn, hprintable]

theorem unit_escaped (lines : Bool) {c : Char} (hquote : c ≠ '"') (tail : List Char) :
    unit true lines (escaped lines c ++ tail) = some ([c], tail) := by
  unfold escaped
  simp only [beq_iff_eq]
  split_ifs with hback htab hnewline hlines hfeed hreturn hslash hcontrol
  · subst hback
    rfl
  · subst htab
    rfl
  · subst hnewline hlines
    rfl
  · subst hnewline
    rfl
  · subst hfeed
    rfl
  · subst hreturn
    rfl
  · subst hslash
    rfl
  · have hsmall : c.toNat < 256 := by
      simp only [Bool.or_eq_true, decide_eq_true_eq, beq_iff_eq] at hcontrol
      rcases hcontrol with hcontrol | rfl
      · omega
      · decide
    have h := codePoint_hexCode c.toNat hsmall tail
    rw [Char.ofNat_toNat] at h
    exact h
  · have hprintable : isPrintable c = true := by
      simp at hcontrol
      simp [isPrintable, hcontrol]
    exact unit_plain (fun _ => hslash) hnewline hprintable tail

theorem unit_quote (lines : Bool) (tail : List Char) :
    unit true lines ('\\' :: '"' :: tail) = some (['"'], tail) := rfl

theorem escaped_eq_cons (lines : Bool) (c : Char) :
    ∃ d rest, escaped lines c = d :: rest ∧ (d = '"' → c = '"') ∧ d ≠ '\r' ∧ (d = '\n' → c = '\n') := by
  have hslash : '\\' ≠ '"' ∧ '\\' ≠ '\r' ∧ '\\' ≠ '\n' := by decide
  unfold escaped hexCode
  simp only [beq_iff_eq]
  split_ifs with _ _ hnewline _ _ hreturn
  all_goals refine ⟨_, _, rfl, ?_⟩
  all_goals simp_all

end Units

section Contents

theorem untilEnd_of_finish {finish unit : Reader (List Char)} {cs : List Char} {done : List Char × List Char}
    {fuel : Nat} (hfuel : 0 < fuel) (h : finish cs = some done) : untilEnd finish unit fuel cs = some done := by
  obtain ⟨n, rfl⟩ : ∃ n, fuel = n + 1 := ⟨fuel - 1, by omega⟩
  simp [untilEnd, h]

theorem untilEnd_of_unit {finish unit : Reader (List Char)} {cs first rest others tail : List Char} {fuel : Nat}
    (hfuel : 0 < fuel) (hfinish : finish cs = none) (hunit : unit cs = some (first, rest))
    (hothers : untilEnd finish unit (fuel - 1) rest = some (others, tail)) :
    untilEnd finish unit fuel cs = some (first ++ others, tail) := by
  obtain ⟨n, rfl⟩ : ∃ n, fuel = n + 1 := ⟨fuel - 1, by omega⟩
  rw [Nat.add_sub_cancel] at hothers
  simp [untilEnd, hfinish, hunit, hothers]

theorem length_le_escapedText (lines : Bool) (free : Nat) (cs : List Char) :
    cs.length ≤ (escapedText lines free cs).length := by
  induction cs generalizing free with
  | nil => simp
  | cons c rest ih =>
    obtain ⟨d, more, hescaped, -⟩ := escaped_eq_cons lines c
    have hmost := ih (if lines then 2 else 0)
    cases free with
    | zero =>
      simp only [escapedText, List.length_cons]
      split <;> simp [hescaped] <;> omega
    | succ free =>
      have hfree := ih free
      simp only [escapedText, List.length_cons]
      split <;> simp [hescaped] <;> omega

theorem untilEnd_escapedText (cs tail : List Char) {fuel : Nat} (hfuel : cs.length < fuel) :
    untilEnd (closing '"') (unit true false) fuel (escapedText false 0 cs ++ '"' :: tail) = some (cs, tail) := by
  induction cs generalizing fuel with
  | nil => exact untilEnd_of_finish hfuel rfl
  | cons c rest ih =>
    rw [List.length_cons] at hfuel
    have hless : rest.length < fuel - 1 := by omega
    have hothers := ih hless
    by_cases hquote : c = '"'
    · subst hquote
      exact untilEnd_of_unit (by omega) rfl (unit_quote false _) hothers
    · have htext : escapedText false 0 (c :: rest) = escaped false c ++ escapedText false 0 rest := by
        simp [escapedText, hquote]
      obtain ⟨d, more, hescaped, hd, -⟩ := escaped_eq_cons false c
      rw [htext, List.append_assoc]
      refine untilEnd_of_unit (by omega) ?_ (unit_escaped false hquote _) hothers
      simp [hescaped, closing, mt hd hquote]

theorem untilEnd_of_plain {cs : List Char} (h : ∀ c ∈ cs, c ≠ '\'' ∧ c ≠ '\n' ∧ isPrintable c = true)
    (tail : List Char) {fuel : Nat} (hfuel : cs.length < fuel) :
    untilEnd (closing '\'') (unit false false) fuel (cs ++ '\'' :: tail) = some (cs, tail) := by
  induction cs generalizing fuel with
  | nil => exact untilEnd_of_finish hfuel rfl
  | cons c rest ih =>
    obtain ⟨⟨hquote, hnewline, hprintable⟩, hrest⟩ := List.forall_mem_cons.mp h
    rw [List.length_cons] at hfuel
    have hless : rest.length < fuel - 1 := by omega
    have hothers := ih hrest hless
    refine untilEnd_of_unit (by omega) ?_ (unit_plain ?_ hnewline hprintable _) hothers
    · simp [closing, hquote]
    · exact fun h => absurd h Bool.false_ne_true

def leading (quote : Char) (cs : List Char) : Nat := (cs.takeWhile (· == quote)).length

theorem leading_cons (quote c : Char) (cs : List Char) :
    leading quote (c :: cs) = if c = quote then leading quote cs + 1 else 0 := by
  by_cases h : c = quote <;> simp [leading, h]

theorem tripleClosing_of_leading {quote : Char} {cs : List Char} (h : leading quote cs < 3) :
    tripleClosing quote cs = none := by
  rw [leading] at h
  simp [tripleClosing, h]

theorem tripleClosing_replicate {quote : Char} {k : Nat} (hk : k ≤ 2) {tail : List Char}
    (htail : leading quote tail = 0) :
    tripleClosing quote (List.replicate k quote ++ quote :: quote :: quote :: tail) =
      some (List.replicate k quote, tail) := by
  have hquotes : leading quote (List.replicate k quote ++ quote :: quote :: quote :: tail) = k + 3 := by
    induction k with
    | zero => simp [leading_cons, htail]
    | succ k ih =>
      have hrest := ih (by omega)
      simp [List.replicate_succ, leading_cons, hrest]
  have hdrop : (List.replicate k quote ++ quote :: quote :: quote :: tail).drop (k + 3) = tail := by
    rw [← List.drop_drop]
    simp
  rw [leading] at hquotes
  simp only [tripleClosing, hquotes]
  rw [if_neg (by omega), Nat.add_sub_cancel, Nat.min_eq_left hk, Nat.min_eq_left (by omega), hdrop]

theorem eq_replicate_or_leading_append (quote : Char) (cs tail : List Char) :
    cs = List.replicate (leading quote cs) quote ∨ leading quote (cs ++ tail) = leading quote cs := by
  induction cs with
  | nil => exact .inl rfl
  | cons c rest ih =>
    rw [List.cons_append, leading_cons, leading_cons]
    by_cases hquote : c = quote
    · subst hquote
      rw [if_pos rfl, if_pos rfl]
      rcases ih with hall | hends
      · exact .inl (congrArg (c :: ·) hall)
      · exact .inr (congrArg (· + 1) hends)
    · rw [if_neg hquote, if_neg hquote]
      exact .inr rfl

def longestRunFrom (quote : Char) (longest run : Nat) : List Char → Nat
  | [] => longest
  | c :: rest =>
    let run := if c == quote then run + 1 else 0
    longestRunFrom quote (max longest run) run rest

theorem longestRun_eq (quote : Char) (cs : List Char) : longestRun quote cs = longestRunFrom quote 0 0 cs := by
  have hfold (p : Nat × Nat) : (cs.foldl (fun p d =>
      let run := if d == quote then p.2 + 1 else 0
      (max p.1 run, run)) p).1 = longestRunFrom quote p.1 p.2 cs := by
    induction cs generalizing p with
    | nil => rfl
    | cons c rest ih => exact ih _
  exact hfold (0, 0)

theorem le_longestRunFrom (quote : Char) {longest run : Nat} (hrun : run ≤ longest) (cs : List Char) :
    longest ≤ longestRunFrom quote longest run cs ∧ run + leading quote cs ≤ longestRunFrom quote longest run cs := by
  induction cs generalizing longest run with
  | nil => exact ⟨Nat.le_refl _, hrun⟩
  | cons c rest ih =>
    rw [longestRunFrom, leading_cons]
    by_cases hquote : c = quote
    · obtain ⟨hlongest, hleading⟩ := ih (Nat.le_max_right longest (run + 1))
      simp only [hquote, beq_self_eq_true, if_true]
      omega
    · obtain ⟨hlongest, hleading⟩ := ih (Nat.zero_le (max longest 0))
      simp only [hquote, beq_iff_eq, if_false]
      omega

theorem leading_le_longestRunFrom {quote : Char} {cs suffix : List Char} (h : suffix <:+ cs) {longest run : Nat}
    (hrun : run ≤ longest) : leading quote suffix ≤ longestRunFrom quote longest run cs := by
  induction cs generalizing longest run with
  | nil =>
    rw [List.suffix_nil.mp h]
    exact Nat.zero_le _
  | cons c rest ih =>
    rcases List.suffix_cons_iff.mp h with rfl | hrest
    · have hleading := (le_longestRunFrom quote hrun (c :: rest)).2
      omega
    · exact ih hrest (Nat.le_max_right _ _)

theorem leading_le_longestRun {quote : Char} {cs suffix : List Char} (h : suffix <:+ cs) :
    leading quote suffix ≤ longestRun quote cs := by
  rw [longestRun_eq]
  exact leading_le_longestRunFrom h (Nat.le_refl 0)

theorem untilEnd_of_plain_lines {cs : List Char} (hplain : ∀ c ∈ cs, c = '\n' ∨ isPrintable c = true)
    (hruns : ∀ suffix, suffix <:+ cs → leading '\'' suffix ≤ 2) {tail : List Char} (htail : leading '\'' tail = 0)
    {fuel : Nat} (hfuel : cs.length < fuel) :
    untilEnd (tripleClosing '\'') (unit false true) fuel (cs ++ '\'' :: '\'' :: '\'' :: tail) = some (cs, tail) := by
  induction cs generalizing fuel with
  | nil => exact untilEnd_of_finish hfuel (tripleClosing_replicate (Nat.zero_le 2) htail)
  | cons c rest ih =>
    obtain ⟨hfirst, hrest⟩ := List.forall_mem_cons.mp hplain
    have hrun := hruns (c :: rest) List.suffix_rfl
    rw [List.length_cons] at hfuel
    -- If only quotes are left, they are read together with the closing ones. Else the text goes on, and of what is next
    -- too little is quotes to end it.
    rcases eq_replicate_or_leading_append '\'' (c :: rest) ('\'' :: '\'' :: '\'' :: tail) with hall | hends
    · rw [hall]
      exact untilEnd_of_finish (by omega) (tripleClosing_replicate hrun htail)
    · have hless : rest.length < fuel - 1 := by omega
      have hothers := ih hrest (fun suffix h => hruns suffix (h.trans (List.suffix_cons c rest))) hless
      have hfinish : tripleClosing '\'' (c :: rest ++ '\'' :: '\'' :: '\'' :: tail) = none :=
        tripleClosing_of_leading (by omega)
      have hunit : unit false true (c :: (rest ++ '\'' :: '\'' :: '\'' :: tail)) =
          some ([c], rest ++ '\'' :: '\'' :: '\'' :: tail) := by
        by_cases hnewline : c = '\n'
        · subst hnewline
          rfl
        · have hprintable := hfirst.resolve_left hnewline
          exact unit_plain (fun h => absurd h Bool.false_ne_true) hnewline hprintable _
      exact untilEnd_of_unit (by omega) hfinish hunit hothers

theorem escapedText_cons_of_ne {c : Char} (hquote : c ≠ '"') (free : Nat) (rest : List Char) :
    escapedText true free (c :: rest) = escaped true c ++ escapedText true 2 rest := by
  simp [escapedText, hquote]

theorem eq_replicate_or_leading_escapedText (free : Nat) (cs tail : List Char) :
    (∃ k ≤ free, cs = List.replicate k '"' ∧ escapedText true free cs = List.replicate k '"') ∨
      leading '"' (escapedText true free cs ++ tail) ≤ free := by
  induction cs generalizing free with
  | nil => exact .inl ⟨0, Nat.zero_le free, rfl, rfl⟩
  | cons c rest ih =>
    by_cases hquote : c = '"'
    · subst hquote
      cases free with
      | zero => exact .inr (Nat.le_refl 0)
      | succ free =>
        have htext : escapedText true (free + 1) ('"' :: rest) = '"' :: escapedText true free rest := rfl
        rw [htext]
        rcases ih free with ⟨k, hk, hrest, hescaped⟩ | hends
        · exact .inl ⟨k + 1, by omega, congrArg ('"' :: ·) hrest, congrArg ('"' :: ·) hescaped⟩
        · refine .inr ?_
          rw [List.cons_append, leading_cons, if_pos rfl]
          omega
    · obtain ⟨d, more, hescaped, hd, -⟩ := escaped_eq_cons true c
      refine .inr ?_
      rw [escapedText_cons_of_ne hquote, hescaped, List.cons_append, List.cons_append, leading_cons,
        if_neg (mt hd hquote)]
      exact Nat.zero_le free

theorem untilEnd_escapedText_lines (cs : List Char) {tail : List Char} (htail : leading '"' tail = 0) {free : Nat}
    (hfree : free ≤ 2) {fuel : Nat} (hfuel : cs.length < fuel) :
    untilEnd (tripleClosing '"') (unit true true) fuel (escapedText true free cs ++ '"' :: '"' :: '"' :: tail) =
      some (cs, tail) := by
  induction cs generalizing free fuel with
  | nil => exact untilEnd_of_finish hfuel (tripleClosing_replicate (Nat.zero_le 2) htail)
  | cons c rest ih =>
    rw [List.length_cons] at hfuel
    rcases eq_replicate_or_leading_escapedText free (c :: rest) ('"' :: '"' :: '"' :: tail) with
      ⟨k, hk, hall, hescaped⟩ | hends
    · rw [hescaped, hall]
      exact untilEnd_of_finish (by omega) (tripleClosing_replicate (Nat.le_trans hk hfree) htail)
    · have hfinish := tripleClosing_of_leading (Nat.lt_succ_of_le (Nat.le_trans hends hfree))
      by_cases hquote : c = '"'
      · subst hquote
        cases free with
        | zero => exact untilEnd_of_unit (by omega) hfinish (unit_quote true _) (ih (Nat.le_refl 2) (by omega))
        | succ free =>
          have hunit : unit true true ('"' :: (escapedText true free rest ++ '"' :: '"' :: '"' :: tail)) =
              some (['"'], escapedText true free rest ++ '"' :: '"' :: '"' :: tail) := rfl
          exact untilEnd_of_unit (by omega) hfinish hunit (ih (by omega) (by omega))
      · rw [escapedText_cons_of_ne hquote, List.append_assoc] at hfinish ⊢
        exact untilEnd_of_unit (by omega) hfinish (unit_escaped true hquote _) (ih (Nat.le_refl 2) (by omega))

end Contents

section Quotings

theorem forall_plain_of_needsCode {cs : List Char} (h : needsCode cs = false) :
    ∀ c ∈ cs, c = '\n' ∨ isPrintable c = true := by
  intro c hc
  have hcode := List.any_eq_false.mp h c hc
  by_cases hnewline : c = '\n'
  · exact .inl hnewline
  · right
    by_cases htab : c = '\t'
    · simp [isPrintable, htab]
    · simp [hnewline, htab] at hcode
      simp [isPrintable, hcode]

theorem lineString_eq {quote : Char} {cs text tail : List Char}
    (h : untilEnd (closing quote) (unit (quote == '"') false) (cs.length + 1) cs = some (text, tail)) :
    lineString quote cs = some (String.ofList text, tail) := by
  simp [lineString, h]

theorem lineString_escapedText (cs tail : List Char) :
    lineString '"' (escapedText false 0 cs ++ '"' :: tail) = some (String.ofList cs, tail) := by
  have hlength := length_le_escapedText false 0 cs
  apply lineString_eq
  apply untilEnd_escapedText
  rw [List.length_append]
  omega

theorem lineString_of_plain {cs : List Char} (h : Quoting.literal.holds cs = true) (tail : List Char) :
    lineString '\'' (cs ++ '\'' :: tail) = some (String.ofList cs, tail) := by
  simp only [Quoting.holds, Bool.and_eq_true, Bool.not_eq_true', List.contains_eq_mem, decide_eq_false_iff_not] at h
  obtain ⟨⟨hcode, hquote⟩, hnewline⟩ := h
  have hplain := forall_plain_of_needsCode hcode
  apply lineString_eq
  apply untilEnd_of_plain
  · intro c hc
    have hne : c ≠ '\n' := fun heq => hnewline (heq ▸ hc)
    exact ⟨fun heq => hquote (heq ▸ hc), hne, (hplain c hc).resolve_left hne⟩
  · rw [List.length_append]
    omega

theorem linesString_eq {quote : Char} {cs body text tail : List Char}
    (hbody : (lineEnd cs).getD cs = body)
    (h : untilEnd (tripleClosing quote) (unit (quote == '"') true) (body.length + 1) body = some (text, tail)) :
    linesString quote cs = some (String.ofList text, tail) := by
  simp [linesString, hbody, h]

theorem drop_opening {cs body : List Char} (h : '\n' ∉ cs → lineEnd body = none) :
    (lineEnd (Quoting.write.opening cs ++ body)).getD (Quoting.write.opening cs ++ body) = body := by
  unfold Quoting.write.opening
  by_cases hnewline : '\n' ∈ cs
  · simp [hnewline, lineEnd]
  · simp [hnewline, h]

theorem linesString_escapedText (cs : List Char) {tail : List Char} (htail : leading '"' tail = 0) :
    linesString '"' (Quoting.write.opening cs ++ (escapedText true 2 cs ++ '"' :: '"' :: '"' :: tail)) =
      some (String.ofList cs, tail) := by
  have hlength := length_le_escapedText true 2 cs
  refine linesString_eq (drop_opening ?_) ?_
  · intro hnewline
    cases cs with
    | nil => rfl
    | cons c rest =>
      rw [List.mem_cons, not_or] at hnewline
      by_cases hquote : c = '"'
      · subst hquote
        rfl
      · obtain ⟨d, more, hescaped, -, hreturn, hd⟩ := escaped_eq_cons true c
        rw [escapedText_cons_of_ne hquote, hescaped]
        exact lineEnd_of_plain (fun heq => hnewline.1 (hd heq).symm) hreturn _
  · apply untilEnd_escapedText_lines cs htail (Nat.le_refl 2)
    rw [List.length_append]
    omega

theorem linesString_of_plain {cs : List Char} (h : Quoting.literalLines.holds cs = true) {tail : List Char}
    (htail : leading '\'' tail = 0) :
    linesString '\'' (Quoting.write.opening cs ++ (cs ++ '\'' :: '\'' :: '\'' :: tail)) =
      some (String.ofList cs, tail) := by
  simp only [Quoting.holds, Bool.and_eq_true, Bool.not_eq_true', decide_eq_true_eq] at h
  have hplain := forall_plain_of_needsCode h.1
  refine linesString_eq (drop_opening ?_) ?_
  · intro hnewline
    cases cs with
    | nil => rfl
    | cons c rest =>
      rw [List.mem_cons, not_or] at hnewline
      refine lineEnd_of_plain (Ne.symm hnewline.1) ?_ _
      rintro rfl
      rcases hplain '\r' List.mem_cons_self with hne | hprintable
      · cases hne
      · cases hprintable
  · refine untilEnd_of_plain_lines hplain ?_ htail ?_
    · intro suffix hsuffix
      exact Nat.le_trans (leading_le_longestRun hsuffix) h.2
    · rw [List.length_append]
      omega

theorem string_of_leading {quote : Char} (hquote : quote = '"' ∨ quote = '\'') {cs : List Char}
    (h : leading quote cs < 2) : string (quote :: cs) = lineString quote cs := by
  have htwo (rest : List Char) : cs ≠ quote :: quote :: rest := by
    rintro rfl
    rw [leading_cons, leading_cons, if_pos rfl, if_pos rfl] at h
    omega
  rcases hquote with rfl | rfl
  all_goals
    unfold string
    split
  all_goals simp_all

theorem leading_escapedText (cs : List Char) {tail : List Char} (htail : leading '"' tail = 0) :
    leading '"' (escapedText false 0 cs ++ '"' :: tail) < 2 := by
  cases cs with
  | nil => simp [escapedText, leading_cons, htail]
  | cons c rest =>
    by_cases hquote : c = '"'
    · subst hquote
      simp [escapedText, leading_cons]
    · obtain ⟨d, more, hescaped, hd, -⟩ := escaped_eq_cons false c
      simp [escapedText, hquote, hescaped, leading_cons, mt hd hquote]

theorem leading_of_not_mem {quote : Char} {cs : List Char} (h : quote ∉ cs) {tail : List Char}
    (htail : leading quote tail = 0) : leading quote (cs ++ quote :: tail) < 2 := by
  cases cs with
  | nil => simp [leading_cons, htail]
  | cons c rest =>
    rw [List.mem_cons, not_or] at h
    simp [leading_cons, Ne.symm h.1]

theorem string_write {q : Quoting} {cs : List Char} (h : q = .basic ∨ q = .basicLines ∨ q.holds cs = true)
    {tail : List Char} (hdouble : leading '"' tail = 0) (hsingle : leading '\'' tail = 0) :
    string (q.write cs ++ tail) = some (String.ofList cs, tail) := by
  cases q with
  | basic =>
    have htext : Quoting.basic.write cs ++ tail = '"' :: (escapedText false 0 cs ++ '"' :: tail) := by
      simp [Quoting.write]
    rw [htext, string_of_leading (.inl rfl) (leading_escapedText cs hdouble), lineString_escapedText]
  | literal =>
    have hholds : Quoting.literal.holds cs = true := by simpa using h
    have hquote : '\'' ∉ cs := by
      simp [Quoting.holds] at hholds
      exact hholds.1.2
    have htext : Quoting.literal.write cs ++ tail = '\'' :: (cs ++ '\'' :: tail) := by
      simp [Quoting.write]
    rw [htext, string_of_leading (.inr rfl) (leading_of_not_mem hquote hsingle), lineString_of_plain hholds]
  | basicLines =>
    have htext : Quoting.basicLines.write cs ++ tail = '"' :: '"' :: '"' ::
        (Quoting.write.opening cs ++ (escapedText true 2 cs ++ '"' :: '"' :: '"' :: tail)) := by
      simp [Quoting.write]
    rw [htext]
    exact linesString_escapedText cs hdouble
  | literalLines =>
    have hholds : Quoting.literalLines.holds cs = true := by simpa using h
    have htext : Quoting.literalLines.write cs ++ tail = '\'' :: '\'' :: '\'' ::
        (Quoting.write.opening cs ++ (cs ++ '\'' :: '\'' :: '\'' :: tail)) := by
      simp [Quoting.write]
    rw [htext]
    exact linesString_of_plain hholds hsingle

theorem of_eq_or_holds (cs : List Char) :
    Quoting.of cs = .basic ∨ Quoting.of cs = .basicLines ∨ (Quoting.of cs).holds cs = true := by
  unfold Quoting.of
  cases hfind : [Quoting.basic, .literal, .basicLines, .literalLines].find? (·.holds cs) with
  | none =>
    rw [Option.getD_none]
    split <;> simp
  | some q => exact .inr (.inr (List.find?_some hfind))

theorem string_writeString (s : String) {tail : List Char} (hdouble : leading '"' tail = 0)
    (hsingle : leading '\'' tail = 0) : string ((writeString s).toList ++ tail) = some (s, tail) := by
  rw [writeString, String.toList_ofList, string_write (of_eq_or_holds s.toList) hdouble hsingle, String.ofList_toList]

theorem simpleKey_basic (cs tail : List Char) :
    simpleKey (Quoting.basic.write cs ++ tail) = some (String.ofList cs, tail) := by
  have htext : Quoting.basic.write cs ++ tail = '"' :: (escapedText false 0 cs ++ '"' :: tail) := by
    simp [Quoting.write]
  rw [htext, simpleKey, lineString_escapedText]

theorem simpleKey_literal {cs : List Char} (h : Quoting.literal.holds cs = true) (tail : List Char) :
    simpleKey (Quoting.literal.write cs ++ tail) = some (String.ofList cs, tail) := by
  have htext : Quoting.literal.write cs ++ tail = '\'' :: (cs ++ '\'' :: tail) := by
    simp [Quoting.write]
  rw [htext, simpleKey, lineString_of_plain h]

theorem simpleKey_bare {cs : List Char} (hne : cs ≠ []) (hbare : ∀ c ∈ cs, isBareKeyChar c = true) {tail : List Char}
    (htail : ∀ c ∈ tail.head?, isBareKeyChar c = false) : simpleKey (cs ++ tail) = some (String.ofList cs, tail) := by
  have hend : tail.takeWhile isBareKeyChar = [] ∧ tail.dropWhile isBareKeyChar = tail := by
    cases tail with
    | nil => exact ⟨rfl, rfl⟩
    | cons c rest => simp [htail c rfl]
  have htake : (cs ++ tail).takeWhile isBareKeyChar = cs := by
    rw [List.takeWhile_append_of_pos hbare, hend.1, List.append_nil]
  have hdrop : (cs ++ tail).dropWhile isBareKeyChar = tail := by
    rw [List.dropWhile_append_of_pos hbare, hend.2]
  cases cs with
  | nil => exact absurd rfl hne
  | cons c rest =>
    have hfirst := hbare c List.mem_cons_self
    have hdouble : c ≠ '"' := by
      rintro rfl
      exact absurd hfirst (by decide)
    have hsingle : c ≠ '\'' := by
      rintro rfl
      exact absurd hfirst (by decide)
    unfold simpleKey
    split
    · next heq => exact absurd (List.cons.inj heq).1 hdouble
    · next heq => exact absurd (List.cons.inj heq).1 hsingle
    · rw [htake, hdrop]

theorem simpleKey_writeKey (s : String) {tail : List Char} (htail : ∀ c ∈ tail.head?, isBareKeyChar c = false) :
    simpleKey ((writeKey s).toList ++ tail) = some (s, tail) := by
  simp only [writeKey]
  split_ifs with hbare hbasic hliteral
  · rw [Bool.and_eq_true, List.all_eq_true] at hbare
    rw [simpleKey_bare (by simpa using hbare.1) hbare.2 htail, String.ofList_toList]
  · rw [String.toList_ofList, simpleKey_basic, String.ofList_toList]
  · rw [String.toList_ofList, simpleKey_literal hliteral, String.ofList_toList]
  · rw [String.toList_ofList, simpleKey_basic, String.ofList_toList]

end Quotings

end MetricReporting.Toml
