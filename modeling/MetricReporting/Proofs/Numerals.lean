import Mathlib.Data.List.TakeWhile
import Mathlib.Tactic.SplitIfs
import MetricReporting.FieldValue
import MetricReporting.Proofs.JsonTexts

namespace MetricReporting

namespace Json

section Parts

variable {α β : Type} {cs ds rest : List Char}

theorem exists_of_map_eq_ok {f : α → β} {x : Except Flaw α} {b : β} (h : x.map f = .ok b) :
    ∃ a, x = .ok a ∧ f a = b := by
  cases x with
  | error e => cases h
  | ok a =>
    cases h
    exact ⟨a, rfl, rfl⟩

theorem exists_of_bind_eq_ok {f : α → Except Flaw β} {x : Except Flaw α} {b : β} (h : (x >>= f) = .ok b) :
    ∃ a, x = .ok a ∧ f a = .ok b := by
  cases x with
  | error e => cases h
  | ok a => exact ⟨a, rfl, h⟩

structure Takes (read : List Char → Read α) (cs : List Char) (a : α) (rest : List Char) : Prop where
  suffix : rest <:+ cs
  append : ∀ tail, Closes tail → read (cs ++ tail) = .ok (a, rest ++ tail)

theorem digits_eq_ok_iff : digits cs = .ok (ds, rest) ↔
    cs = ds ++ rest ∧ ds ≠ [] ∧ (∀ c ∈ ds, c.isDigit = true) ∧ ∀ c ∈ rest.head?, c.isDigit = false := by
  constructor
  · intro h
    cases cs with
    | nil => cases h
    | cons c cs =>
      simp only [digits] at h
      split_ifs at h with hc
      cases h
      refine ⟨List.takeWhile_append_dropWhile.symm, ?_, fun d => List.mem_takeWhile_imp, ?_⟩
      · rw [List.takeWhile_cons_of_pos hc]
        exact List.cons_ne_nil _ _
      · intro d hd
        have hhead := List.head?_dropWhile_not Char.isDigit (c :: cs)
        rw [Option.mem_def.mp hd] at hhead
        exact hhead
  · rintro ⟨rfl, hne, hdigits, hhead⟩
    have hnone : rest.takeWhile Char.isDigit = [] ∧ rest.dropWhile Char.isDigit = rest := by
      cases rest with
      | nil => exact ⟨rfl, rfl⟩
      | cons d rest =>
        have hd : ¬ d.isDigit = true := by simp [hhead d rfl]
        exact ⟨List.takeWhile_cons_of_neg hd, List.dropWhile_cons_of_neg hd⟩
    cases ds with
    | nil => exact absurd rfl hne
    | cons c ds =>
      rw [List.cons_append, digits, if_pos (hdigits c List.mem_cons_self), ← List.cons_append,
        List.takeWhile_append_of_pos hdigits, List.dropWhile_append_of_pos hdigits, hnone.1, hnone.2, List.append_nil]

theorem takes_digits (h : digits cs = .ok (ds, rest)) : Takes digits cs ds rest := by
  obtain ⟨rfl, hne, hdigits, hhead⟩ := digits_eq_ok_iff.mp h
  refine ⟨List.suffix_append ds rest, ?_⟩
  intro tail htail
  rw [List.append_assoc]
  refine digits_eq_ok_iff.mpr ⟨rfl, hne, hdigits, ?_⟩
  intro c hc
  cases rest with
  | nil => rcases htail c hc with rfl | rfl <;> rfl
  | cons d rest => exact hhead c hc

theorem takes_of_digits {read : List Char → Read α} {f : List Char → α} (lead : List Char) {a : α}
    (hread : ∀ tail, Closes tail → read (lead ++ cs ++ tail) = (digits (cs ++ tail)).map fun p => (f p.1, p.2))
    (h : read (lead ++ cs) = .ok (a, rest)) : Takes read (lead ++ cs) a rest ∧ ∃ ds, a = f ds := by
  have hdigits := hread [] closes_nil
  rw [List.append_nil, List.append_nil, h] at hdigits
  obtain ⟨⟨ds, after⟩, hds, heq⟩ := exists_of_map_eq_ok hdigits.symm
  cases heq
  have htakes := takes_digits hds
  refine ⟨⟨htakes.suffix.trans (List.suffix_append lead cs), ?_⟩, ds, rfl⟩
  intro tail htail
  rw [hread tail htail, htakes.append tail htail]
  rfl

theorem takes_fractionPart {fraction : Option (List Char)} (h : fractionPart cs = .ok (fraction, rest)) :
    Takes fractionPart cs fraction rest ∧ (fraction = none → rest = cs) := by
  have htext := h
  rw [fractionPart.eq_def] at h
  split at h
  · obtain ⟨htakes, ds, rfl⟩ := takes_of_digits (f := some) ['.'] (fun _ _ => rfl) htext
    exact ⟨htakes, fun hnone => nomatch hnone⟩
  · rename_i hdot
    cases h
    refine ⟨⟨List.suffix_refl _, ?_⟩, fun _ => rfl⟩
    intro tail htail
    rw [fractionPart.eq_def]
    split
    · rename_i heq
      cases cs with
      | nil =>
        subst heq
        rcases htail '.' rfl with h | h <;> cases h
      | cons c cs =>
        cases heq
        exact absurd rfl (hdot cs)
    · rfl

theorem takes_exponentPart {exponent : Option Int} (h : exponentPart cs = .ok (exponent, rest)) :
    Takes exponentPart cs exponent rest ∧ (exponent = none → rest = cs) := by
  cases cs with
  | nil =>
    cases h
    refine ⟨⟨List.suffix_refl _, ?_⟩, fun _ => rfl⟩
    intro tail htail
    cases tail with
    | nil => rfl
    | cons c tail => rcases htail c rfl with rfl | rfl <;> rfl
  | cons c cs =>
    cases hc : c == 'e' || c == 'E' with
    | false =>
      simp only [exponentPart, hc] at h
      cases h
      refine ⟨⟨List.suffix_refl _, ?_⟩, fun _ => rfl⟩
      intro tail _
      simp [exponentPart, hc]
    | true =>
      cases cs with
      | nil =>
        simp only [exponentPart, hc] at h
        cases h
      | cons d cs =>
        by_cases hminus : d = '-'
        · subst hminus
          obtain ⟨htakes, ds, rfl⟩ := takes_of_digits (f := fun ds => some (-(natOfDigits ds : Int))) [c, '-']
            (fun _ _ => by simp [exponentPart, hc]) h
          exact ⟨htakes, fun hnone => nomatch hnone⟩
        by_cases hplus : d = '+'
        · subst hplus
          obtain ⟨htakes, ds, rfl⟩ := takes_of_digits (f := fun ds => some (natOfDigits ds : Int)) [c, '+']
            (fun _ _ => by simp [exponentPart, hc]) h
          exact ⟨htakes, fun hnone => nomatch hnone⟩
        obtain ⟨htakes, ds, rfl⟩ := takes_of_digits (f := fun ds => some (natOfDigits ds : Int)) [c]
          (fun _ _ => by simp [exponentPart, hc, hminus, hplus]) h
        exact ⟨htakes, fun hnone => nomatch hnone⟩

theorem takes_numeral {negative : Bool} {t : Numeral} (h : numeral negative cs = .ok (t, rest)) :
    Takes (numeral negative) cs t rest ∧
      (t.fraction = none → t.exponent = none → cs = t.whole ++ rest ∧ ∀ c ∈ t.whole, c.isDigit = true) := by
  obtain ⟨⟨whole, afterWhole⟩, hwhole, h⟩ := exists_of_bind_eq_ok h
  simp only at h
  split_ifs at h with hzero
  · cases h
  obtain ⟨⟨fraction, afterFraction⟩, hfraction, h⟩ := exists_of_bind_eq_ok h
  obtain ⟨⟨exponent, afterExponent⟩, hexponent, h⟩ := exists_of_bind_eq_ok h
  cases h
  obtain ⟨htakes, hnofraction⟩ := takes_fractionPart hfraction
  obtain ⟨htakes', hnoexponent⟩ := takes_exponentPart hexponent
  constructor
  · refine ⟨(htakes'.suffix.trans htakes.suffix).trans (takes_digits hwhole).suffix, ?_⟩
    intro tail htail
    simp only [numeral, (takes_digits hwhole).append tail htail, htakes.append tail htail, htakes'.append tail htail,
      bind, Except.bind, hzero]
    rfl
  · intro hnone hnone'
    obtain ⟨heq, -, hdigits, -⟩ := digits_eq_ok_iff.mp hwhole
    have hrest : afterExponent = afterWhole := (hnoexponent hnone').trans (hnofraction hnone)
    rw [hrest]
    exact ⟨heq, hdigits⟩

theorem takes_number [FloatFormat] {negative : Bool} {n : Number} (h : number negative cs = .ok (n, rest)) :
    ∃ t, numeral negative cs = .ok (t, rest) ∧ t.value = .ok n ∧ Takes (number negative) cs n rest := by
  obtain ⟨⟨t, after⟩, ht, h⟩ := exists_of_bind_eq_ok h
  obtain ⟨n, hn, h⟩ := exists_of_bind_eq_ok h
  cases h
  obtain ⟨htakes, -⟩ := takes_numeral ht
  refine ⟨t, ht, hn, htakes.suffix, ?_⟩
  intro tail htail
  simp only [number, htakes.append tail htail, hn, bind, Except.bind]
  rfl

end Parts

section Whole

theorem head?_toDigits_ne_zero (n : Nat) (h : 0 < n) : (Nat.toDigits 10 n).head? ≠ some '0' := by
  induction n using Nat.strongRecOn with
  | ind n ih =>
    by_cases hsmall : n < 10
    · rw [Nat.toDigits_of_lt_base hsmall]
      intro hzero
      have hdigit := Nat.digitChar_eq_zero.mp (Option.some.inj hzero)
      omega
    · have hlead := ih (n / 10) (by omega) (by omega)
      rw [Nat.toDigits_of_base_le (by decide) (by omega), List.head?_append,
        Option.or_of_isSome (List.isSome_head?.mpr Nat.toDigits_ne_nil)]
      exact hlead

theorem numeral_toDigits (negative : Bool) (n : Nat) {tail : List Char} (htail : Closes tail) :
    numeral negative (Nat.toDigits 10 n ++ tail) = .ok (⟨negative, Nat.toDigits 10 n, none, none⟩, tail) := by
  have hdigits : digits (Nat.toDigits 10 n) = .ok (Nat.toDigits 10 n, []) := by
    refine digits_eq_ok_iff.mpr ⟨(List.append_nil _).symm, Nat.toDigits_ne_nil, ?_, by simp⟩
    intro c hc
    exact Nat.isDigit_of_mem_toDigits (by decide) (by decide) hc
  have hfraction : Takes fractionPart [] none [] := (takes_fractionPart rfl).1
  have hexponent : Takes exponentPart [] none [] := (takes_exponentPart rfl).1
  have hplain : ((Nat.toDigits 10 n).head? == some '0' && decide (1 < (Nat.toDigits 10 n).length)) = false := by
    rcases Nat.eq_zero_or_pos n with rfl | hpos
    · decide
    · simp [head?_toDigits_ne_zero n hpos]
  simp only [numeral, (takes_digits hdigits).append tail htail, hplain, List.nil_append, bind, Except.bind]
  have hfraction' := hfraction.append tail htail
  have hexponent' := hexponent.append tail htail
  rw [List.nil_append] at hfraction' hexponent'
  rw [hfraction']
  simp [hexponent', pure, Except.pure]

theorem le_ofDigitChars (ds : List Char) (n : Nat) : n ≤ Nat.ofDigitChars 10 ds n := by
  rw [Nat.ofDigitChars_eq_ofDigitChars_zero]
  have hpow : 0 < 10 ^ ds.length := Nat.pow_pos (by decide)
  have hmul := Nat.le_mul_of_pos_left n hpow
  omega

theorem takeIn_eq (ds : List Char) (n : Nat) (h : Nat.ofDigitChars 10 ds n < Nat.pow 2 64) :
    takeIn n ds = (Nat.ofDigitChars 10 ds n, 0) := by
  induction ds generalizing n with
  | nil => rfl
  | cons c rest ih =>
    have hvalue : Nat.ofDigitChars 10 (c :: rest) n = Nat.ofDigitChars 10 rest (n * 10 + digitValue c) := by
      rw [Nat.ofDigitChars_cons, Nat.mul_comm, digitValue]
    rw [hvalue] at h ⊢
    -- If all the digits fit, so do the first ones.
    rw [takeIn, if_pos (Nat.lt_of_le_of_lt (le_ofDigitChars rest _) h)]
    exact ih _ h

theorem takeIn_toDigits {n : Nat} (h : n < Nat.pow 2 64) : takeIn 0 (Nat.toDigits 10 n) = (n, 0) := by
  have hvalue : Nat.ofDigitChars 10 (Nat.toDigits 10 n) 0 = n := Nat.ofDigitChars_ten_toDigits
  rw [takeIn_eq _ _ (by rw [hvalue]; exact h), hvalue]

theorem number_of_nat [FloatFormat] {n : Nat} (h : n < Nat.pow 2 64) {tail : List Char} (htail : Closes tail) :
    number false (Nat.toDigits 10 n ++ tail) = .ok (.integer n, tail) := by
  simp [number, numeral_toDigits false n htail, Numeral.value, takeIn_toDigits h, bind, Except.bind, pure, Except.pure]

theorem number_of_neg [FloatFormat] {n : Nat} (hpos : 0 < n) (h : n ≤ Nat.pow 2 63) {tail : List Char}
    (htail : Closes tail) : number true (Nat.toDigits 10 n ++ tail) = .ok (.integer (-n), tail) := by
  have hlt : n < Nat.pow 2 64 := Nat.lt_of_le_of_lt h (by decide)
  simp [number, numeral_toDigits true n htail, Numeral.value, takeIn_toDigits hlt, bind, Except.bind, pure, Except.pure,
    hpos, h]

end Whole

section Decimals

def isNumeric (c : Char) : Bool := c.isDigit || c == '-' || c == '+' || c == '.' || c == 'e'

def AllNumeric (cs : List Char) : Prop := ∀ c ∈ cs, isNumeric c = true

structure IsDecimal (cs : List Char) : Prop where
  numeric : AllNumeric cs
  marked : '.' ∈ cs ∨ 'e' ∈ cs

theorem AllNumeric.append {a b : List Char} (ha : AllNumeric a) (hb : AllNumeric b) : AllNumeric (a ++ b) := by
  intro c hc
  rcases List.mem_append.mp hc with hc | hc
  · exact ha c hc
  · exact hb c hc

theorem AllNumeric.cons {c : Char} {cs : List Char} (hc : isNumeric c = true) (h : AllNumeric cs) :
    AllNumeric (c :: cs) := by
  intro d hd
  rcases List.mem_cons.mp hd with rfl | hd
  · exact hc
  · exact h d hd

theorem allNumeric_toString (n : Nat) : AllNumeric (toString n).toList := by
  intro c hc
  rw [Nat.toString_eq_ofList_toDigits, String.toList_ofList] at hc
  have hdigit := Nat.isDigit_of_mem_toDigits (by decide) (by decide) hc
  simp [isNumeric, hdigit]

theorem allNumeric_zeros (n : Nat) : AllNumeric (List.replicate n '0') := by
  intro c hc
  rw [List.eq_of_mem_replicate hc]
  rfl

theorem isDecimal_of_point {a b : List Char} (ha : AllNumeric a) (hb : AllNumeric b) : IsDecimal (a ++ '.' :: b) :=
  ⟨ha.append (hb.cons rfl), .inl (by simp)⟩

theorem isDecimal_of_exponent {a b : List Char} (ha : AllNumeric a) (hb : AllNumeric b) : IsDecimal (a ++ 'e' :: b) :=
  ⟨ha.append (hb.cons rfl), .inr (by simp)⟩

theorem isDecimal_render (layout : Decimal.Layout) (d : Decimal.Digits) : IsDecimal (layout.render d).toList := by
  have hdigits := allNumeric_toString d.digits
  have htake : ∀ k, AllNumeric ((toString d.digits).toList.take k) := fun k c hc => hdigits c (List.mem_of_mem_take hc)
  have hdrop : ∀ k, AllNumeric ((toString d.digits).toList.drop k) := fun k c hc => hdigits c (List.mem_of_mem_drop hc)
  unfold Decimal.Layout.render
  simp only
  generalize d.exponent + ((toString d.digits).length : Int) - 1 = lead
  -- With an exponent: a single digit or more of them, each with either sign. Without: below one, whole, or neither.
  split_ifs with hscientific hsingle hsmall hsmall hsmall hwhole
  · have h := isDecimal_of_exponent hdigits ((allNumeric_toString lead.natAbs).cons (c := '-') rfl)
    simpa using h
  · have h := isDecimal_of_exponent hdigits ((allNumeric_toString lead.natAbs).cons (c := '+') rfl)
    simpa using h
  · have h := isDecimal_of_exponent ((htake 1).append ((hdrop 1).cons (c := '.') rfl))
      ((allNumeric_toString lead.natAbs).cons (c := '-') rfl)
    simpa using h
  · have h := isDecimal_of_exponent ((htake 1).append ((hdrop 1).cons (c := '.') rfl))
      ((allNumeric_toString lead.natAbs).cons (c := '+') rfl)
    simpa using h
  · have h := isDecimal_of_point (allNumeric_zeros 1) ((allNumeric_zeros (-lead - 1).toNat).append hdigits)
    simpa using h
  · have h := isDecimal_of_point (hdigits.append (allNumeric_zeros d.exponent.toNat)) (allNumeric_zeros 1)
    simpa using h
  · have h := isDecimal_of_point (htake (lead + 1).toNat) (hdrop (lead + 1).toNat)
    simpa using h

theorem isDecimal_numberText {x : Float} (hnan : x.isNaN = false) (hinf : x.isInf = false) :
    IsDecimal (numberText x).toList := by
  have hzero : IsDecimal "0.0".toList := isDecimal_of_point (allNumeric_zeros 1) (allNumeric_zeros 1)
  have hsigned : ∀ {text : String}, IsDecimal text.toList →
      IsDecimal ((if x.toBits.toNat < Nat.pow 2 63 then "" else "-") ++ text).toList := by
    intro text h
    split_ifs with hsign
    · simpa using h
    · simpa using (⟨h.numeric.cons (c := '-') rfl, by simpa using h.marked⟩ : IsDecimal ('-' :: text.toList))
  simp only [numberText, hnan, hinf, Bool.or_false, Bool.false_eq_true, if_false]
  by_cases hnull : (Decimal.Binary.ofBits x.toBits).significand = 0
  · rw [if_pos hnull]
    exact hsigned hzero
  · rw [if_neg hnull]
    exact hsigned (isDecimal_render _ _)

theorem IsDecimal.not_allDigits {cs : List Char} (h : IsDecimal cs) : ¬ ∀ c ∈ cs, c.isDigit = true := by
  intro hdigits
  rcases h.marked with hmark | hmark
  · cases hdigits '.' hmark
  · cases hdigits 'e' hmark

theorem Numeral.float_of_value [FloatFormat] {t : Numeral} {n : Number} (h : t.value = .ok n)
    (hpart : ¬ (t.fraction = none ∧ t.exponent = none)) : ∃ x, n = .float x := by
  have hcond : (t.fraction.isNone && t.exponent.isNone) = false := by
    rw [Bool.eq_false_iff]
    intro hboth
    rw [Bool.and_eq_true, Option.isNone_iff_eq_none, Option.isNone_iff_eq_none] at hboth
    exact hpart hboth
  simp only [Numeral.value, hcond, Bool.false_and, Bool.false_eq_true, if_false] at h
  obtain ⟨x, -, h⟩ := exists_of_bind_eq_ok h
  cases h
  exact ⟨_, rfl⟩

theorem float_of_number [FloatFormat] {negative : Bool} {cs : List Char} {n : Number} (hcs : IsDecimal cs)
    (h : number negative cs = .ok (n, [])) : ∃ x, n = .float x := by
  obtain ⟨t, ht, hvalue, -⟩ := takes_number h
  obtain ⟨-, hwhole⟩ := takes_numeral ht
  refine t.float_of_value hvalue ?_
  rintro ⟨hfraction, hexponent⟩
  obtain ⟨heq, hdigits⟩ := hwhole hfraction hexponent
  rw [List.append_nil] at heq
  rw [← heq] at hdigits
  exact hcs.not_allDigits hdigits

end Decimals

theorem isSpace_of_isNumeric {c : Char} (h : isNumeric c = true) : isSpace c = false := by
  rw [Bool.eq_false_iff]
  intro hspace
  simp only [isSpace, Bool.or_eq_true, beq_iff_eq] at hspace
  rcases hspace with ((rfl | rfl) | rfl) | rfl <;> cases h

end Json

open Json

/-- A finite float is written with a fraction or an exponent, and any other as `null`. -/
class LawfulFloatFormat [FloatFormat] : Prop where
  isDecimal_text {x : Float} : x.isNaN = false → x.isInf = false → IsDecimal (FloatFormat.text x).toList
  text_of_not_finite {x : Float} : (x.isNaN || x.isInf) = true → FloatFormat.text x = "null"

instance : LawfulFloatFormat where
  isDecimal_text := isDecimal_numberText
  text_of_not_finite h := if_pos h

namespace FieldValue

variable [FloatFormat]

/-- A float is exact if reading its decimal text as a float gives the same float. Other values are exact. -/
def IsExact : FieldValue → Prop
  | float x => ∃ v, parse (FloatFormat.text x) = .ok v ∧ v.toFloat? = some x
  | _ => True

theorem isExact_float_iff (x : Float) :
    (float x).IsExact ↔ (parse (FloatFormat.text x)).toOption.bind toFloat? = some x := by
  cases htext : parse (FloatFormat.text x) with
  | error e => simp [IsExact, htext, Except.toOption]
  | ok v => simp [IsExact, htext, Except.toOption]

instance (v : FieldValue) : Decidable v.IsExact :=
  match v with
  | float x => decidable_of_iff _ (isExact_float_iff x).symm
  | integer _ => .isTrue trivial
  | text _ => .isTrue trivial
  | flag _ => .isTrue trivial

theorem finite_of_isExact [LawfulFloatFormat] {x : Float} (h : (float x).IsExact) :
    x.isNaN = false ∧ x.isInf = false := by
  rw [← Bool.or_eq_false_iff, Bool.eq_false_iff]
  intro hnull
  obtain ⟨v, hparse, -⟩ := h
  have hnone : parse "null" = .error .mismatched := by rfl
  rw [LawfulFloatFormat.text_of_not_finite hnull, hnone] at hparse
  cases hparse

theorem read_of_minus (depth : Nat) (cs : List Char) :
    read depth ('-' :: cs) = (number true cs).map fun p => (ofNumber p.1, p.2) := by
  rfl

theorem read_of_digit (depth : Nat) {c : Char} (hc : c.isDigit = true) (cs : List Char) :
    read depth (c :: cs) = (number false (c :: cs)).map fun p => (ofNumber p.1, p.2) := by
  have hspace : isSpace c = false := isSpace_of_isNumeric (by simp [isNumeric, hc])
  rw [read, skipSpace, List.dropWhile_cons_of_neg (by simp [hspace])]
  split
  · rename_i heq
    cases heq
  · rename_i heq
    cases heq
    cases hc
  · rename_i heq
    cases heq
    cases hc
  · rename_i heq
    cases heq
    cases hc
  · rename_i heq
    cases heq
    cases hc
  · rw [List.head?_cons, Option.any_some, if_pos hc]

theorem read_ne_ok (depth : Nat) {c : Char} (hc : c = '+' ∨ c = '.' ∨ c = 'e') (cs : List Char)
    (r : FieldValue × List Char) : read depth (c :: cs) ≠ .ok r := by
  have hrefused : read depth (c :: cs) = skip ⟨true, some depth⟩ (c :: cs) >>= fun _ => .error .mismatched := by
    rcases hc with rfl | rfl | rfl <;> rfl
  rw [hrefused]
  intro h
  obtain ⟨-, -, h⟩ := exists_of_bind_eq_ok h
  cases h

theorem number_of_read {depth : Nat} {cs rest : List Char} {v : FieldValue} (hcs : IsDecimal cs)
    (h : read depth cs = .ok (v, rest)) : ∃ negative body n, IsDecimal body ∧ rest <:+ body ∧
      number negative body = .ok (n, rest) ∧ v = ofNumber n ∧
      ∀ depth tail, read depth (cs ++ tail) = (number negative (body ++ tail)).map fun p => (ofNumber p.1, p.2) := by
  cases cs with
  | nil => rcases hcs.marked with hmark | hmark <;> cases hmark
  | cons c cs =>
    have hc := hcs.numeric c List.mem_cons_self
    simp only [isNumeric, Bool.or_eq_true, beq_iff_eq] at hc
    rcases hc with (((hdigit | rfl) | hplus) | hpoint) | hexponent
    · rw [read_of_digit depth hdigit] at h
      obtain ⟨⟨n, after⟩, hnumber, heq⟩ := exists_of_map_eq_ok h
      cases heq
      obtain ⟨-, -, -, htakes⟩ := takes_number hnumber
      exact ⟨false, c :: cs, n, hcs, htakes.suffix, hnumber, rfl, fun depth tail => read_of_digit depth hdigit _⟩
    · rw [read_of_minus] at h
      obtain ⟨⟨n, after⟩, hnumber, heq⟩ := exists_of_map_eq_ok h
      cases heq
      obtain ⟨-, -, -, htakes⟩ := takes_number hnumber
      have hbody : IsDecimal cs := by
        refine ⟨fun d hd => hcs.numeric d (List.mem_cons_of_mem _ hd), ?_⟩
        simpa using hcs.marked
      exact ⟨true, cs, n, hbody, htakes.suffix, hnumber, rfl, fun depth tail => read_of_minus depth _⟩
    · exact absurd h (read_ne_ok depth (.inl hplus) cs _)
    · exact absurd h (read_ne_ok depth (.inr (.inl hpoint)) cs _)
    · exact absurd h (read_ne_ok depth (.inr (.inr hexponent)) cs _)

theorem reads_integer (depth : Nat) (n : Int64) : Reads (read depth) (integer n).json (integer n) := by
  intro tail htail
  have hlow := n.le_toInt
  have hhigh := n.toInt_lt
  have hvalue : ofNumber (.integer n.toInt) = integer n := by
    rw [ofNumber, if_pos n.toInt_le, Int64.ofInt_toInt]
  rw [json, Int.toString_eq_repr, Int.repr_eq_if]
  by_cases hneg : n.toInt < 0
  · obtain ⟨k, hk⟩ : ∃ k : Nat, n.toInt = -(k : Int) := ⟨(-n.toInt).toNat, by omega⟩
    rw [hk] at hneg hlow hvalue ⊢
    have hbound : k ≤ 2 ^ 63 := by omega
    have hnumber := number_of_neg (by omega) hbound htail
    have htext : ("-" ++ (- -(k : Int)).toNat.repr).toList = '-' :: Nat.toDigits 10 k := by
      simp [Nat.repr_eq_ofList_toDigits]
    rw [if_neg (by omega), htext, List.cons_append, read_of_minus, hnumber, Except.map, hvalue]
  · obtain ⟨k, hk⟩ : ∃ k : Nat, n.toInt = (k : Int) := ⟨n.toInt.toNat, by omega⟩
    rw [hk] at hhigh hvalue ⊢
    have hbound : k < 2 ^ 64 := by omega
    have hnumber := number_of_nat hbound htail
    have htext : (k : Int).toNat.repr.toList = Nat.toDigits 10 k := by
      simp [Nat.repr_eq_ofList_toDigits]
    rw [if_pos (by omega), htext]
    cases hdigits : Nat.toDigits 10 k with
    | nil => exact absurd hdigits Nat.toDigits_ne_nil
    | cons c cs =>
      have hc : c.isDigit = true := by
        apply Nat.isDigit_of_mem_toDigits (b := 10) (n := k) (by decide) (by decide)
        simp [hdigits]
      rw [hdigits] at hnumber
      rw [List.cons_append] at hnumber ⊢
      rw [read_of_digit depth hc, hnumber, Except.map, hvalue]

theorem reads_float [LawfulFloatFormat] (depth : Nat) {x : Float} (h : (float x).IsExact) :
    Reads (read depth) (float x).json (float x) := by
  obtain ⟨hnan, hinf⟩ := finite_of_isExact h
  have hdecimal := LawfulFloatFormat.isDecimal_text hnan hinf
  obtain ⟨v, hparse, hv⟩ := h
  obtain ⟨⟨v, rest⟩, hread, hend⟩ := exists_of_bind_eq_ok hparse
  simp only at hend
  split_ifs at hend with hblank
  cases hend
  obtain ⟨negative, body, n, hbody, hsuffix, hnumber, rfl, happend⟩ := number_of_read hdecimal hread
  -- Only blanks may be left over, and the text has none.
  have hrest : rest = [] := by
    rw [List.isEmpty_iff, skipSpace, List.dropWhile_eq_nil_iff] at hblank
    cases rest with
    | nil => rfl
    | cons c rest =>
      have hc := isSpace_of_isNumeric (hbody.numeric c (hsuffix.subset List.mem_cons_self))
      rw [hblank c List.mem_cons_self] at hc
      cases hc
  subst hrest
  obtain ⟨y, rfl⟩ := float_of_number hbody hnumber
  cases hv
  obtain ⟨-, -, -, htakes⟩ := takes_number hnumber
  intro tail htail
  rw [json, happend, htakes.append tail htail]
  rfl

theorem reads_json [LawfulFloatFormat] (depth : Nat) {v : FieldValue} (h : v.IsExact) :
    Reads (read depth) v.json v := by
  cases v with
  | integer n => exact reads_integer depth n
  | float x => exact reads_float depth h
  | text s =>
    intro tail _
    rw [json, quote_append, read, skipSpace, List.dropWhile_cons_of_neg (by decide)]
    simp [stringChars_quoted, Except.map]
  | flag b =>
    intro tail _
    cases b <;> simp [json, read, skipSpace, isSpace, afterWord, Except.map]

end FieldValue

end MetricReporting
