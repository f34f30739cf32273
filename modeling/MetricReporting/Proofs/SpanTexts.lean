import MetricReporting.Proofs.Numerals
import MetricReporting.Span.Wording

namespace MetricReporting

namespace Span

section Sums

def Measure.inNanos : Measure → Nat
  | .seconds k => k * 1000000000
  | .nanos k => k

def measure? (unit : String) : Option Measure := (wordUnits.find? (·.spellings.contains unit)).map (·.whole)

theorem word_of_lt {n : Nat} (h : n < Nat.pow 2 64) : word n = .ok n := if_pos h

theorem plus_eq (total : Span) (seconds : Nat) {nanos : Nat} (hnanos : nanos < 1000000000)
    (h : total.nanos + seconds * 1000000000 + nanos < Nat.pow 2 64 * 1000000000) :
    plus total seconds nanos = .ok ⟨total.nanos + seconds * 1000000000 + nanos⟩ := by
  have hpow : Nat.pow 2 64 = 18446744073709551616 := rfl
  rw [hpow] at h
  have hbelow : total.subsecondNanos + nanos < Nat.pow 2 64 := by
    rw [subsecondNanos, hpow]
    omega
  have hsum : total.seconds + seconds + (if 1000000000 < total.subsecondNanos + nanos
      then (total.subsecondNanos + nanos) / 1000000000 else 0) < Nat.pow 2 64 := by
    rw [subsecondNanos, Span.seconds, hpow]
    split <;> omega
  rw [← hpow] at h
  simp [plus, word, hbelow, hsum, h, bind, Except.bind]

theorem times_one (m : Measure) (n : Nat) (h : n * m.inNanos < Nat.pow 2 64 * 1000000000)
    (hnanos : ∀ k, m = .nanos k → n * k < 1000000000) :
    ∃ seconds nanos, m.times n 1 = .ok (seconds, nanos) ∧ nanos < 1000000000 ∧
      seconds * 1000000000 + nanos = n * m.inNanos := by
  have hpow : Nat.pow 2 64 = 18446744073709551616 := rfl
  rw [hpow] at h
  cases m with
  | seconds k =>
    rw [Measure.inNanos] at h
    have hword : n * k < Nat.pow 2 64 := by
      rw [← Nat.mul_assoc] at h
      omega
    refine ⟨n * k, 0, ?_, by decide, by rw [Measure.inNanos, Nat.add_zero, Nat.mul_assoc]⟩
    simp [Measure.times, Measure.times.share, word, hword, Nat.mod_one, bind, Except.bind, pure, Except.pure]
  | nanos k =>
    have hfew := hnanos k rfl
    have hword : n * k < Nat.pow 2 64 := by
      rw [hpow]
      omega
    refine ⟨0, n * k, ?_, hfew, by rw [Measure.inNanos, Nat.zero_mul, Nat.zero_add]⟩
    simp [Measure.times, Measure.times.share, word, hword, Nat.mod_one, bind, Except.bind, pure, Except.pure]

theorem plusAmount_of_measure {unit : String} {m : Measure} (hunit : measure? unit = some m) {total : Span} {n : Nat}
    (h : total.nanos + n * m.inNanos < Nat.pow 2 64 * 1000000000)
    (hnanos : ∀ k, m = .nanos k → n * k < 1000000000) :
    plusAmount total ⟨n, 0, 1⟩ unit = .ok ⟨total.nanos + n * m.inNanos⟩ := by
  obtain ⟨u, hfind, rfl⟩ := Option.map_eq_some_iff.mp hunit
  obtain ⟨seconds, nanos, htimes, hless, hsum⟩ := times_one u.whole n (by omega) hnanos
  have hplus := plus_eq total seconds hless (by omega)
  simp only [plusAmount, hfind, htimes, hplus, bind, Except.bind, pure, Except.pure, if_true]
  congr 2
  omega

end Sums

section Items

structure Item where
  amount : Nat
  unit : String
  measure : Measure

namespace Item

def worth (i : Item) : Nat := i.amount * i.measure.inNanos

def text (i : Item) : String := toString i.amount ++ i.unit

structure IsReadable (i : Item) : Prop where
  measured : measure? i.unit = some i.measure
  letters : i.unit.toList.all (fun c => isUnitLetter c && !c.isDigit && !Text.isBlank c) = true
  begins : i.unit.toList ≠ []
  few : i.amount < Nat.pow 2 64
  below : ∀ k, i.measure = .nanos k → i.amount * k < 1000000000

def plural (n : Nat) (unit : String) (measure : Measure) : Item := ⟨n, if n = 1 then unit else unit ++ "s", measure⟩

theorem worth_seconds (n : Nat) (unit : String) (k : Nat) : worth ⟨n, unit, .seconds k⟩ = n * (k * 1000000000) := by
  rw [worth, Measure.inNanos]

theorem worth_nanos (n : Nat) (unit : String) (k : Nat) : worth ⟨n, unit, .nanos k⟩ = n * k := by
  rw [worth, Measure.inNanos]

def total : List Item → Nat
  | [] => 0
  | i :: rest => i.worth + total rest

theorem total_cons (i : Item) (l : List Item) : total (i :: l) = i.worth + total l := by
  rw [total]

end Item

def items (s : Span) : List Item :=
  let inYear := s.seconds % 31557600
  let inMonth := inYear % 2630016
  let inDay := inMonth % 86400
  let part := s.subsecondNanos
  [.plural (s.seconds / 31557600) "year" (.seconds 31557600), .plural (inYear / 2630016) "month" (.seconds 2630016),
    .plural (inMonth / 86400) "day" (.seconds 86400), ⟨inDay / 3600, "h", .seconds 3600⟩,
    ⟨inDay % 3600 / 60, "m", .seconds 60⟩, ⟨inDay % 60, "s", .seconds 1⟩, ⟨part / 1000000, "ms", .nanos 1000000⟩,
    ⟨part / 1000 % 1000, "us", .nanos 1000⟩, ⟨part % 1000, "ns", .nanos 1⟩]

theorem render_eq {s : Span} (h : s.isZero = false) :
    s.render = " ".intercalate ((s.items.filter (0 < ·.amount)).map Item.text) := by
  let plain (i : Item) : Nat × String := (i.amount, i.unit)
  have htexts (l : List Item) :
      ((l.map plain).filter fun item => 0 < item.1).map (fun item => toString item.1 ++ item.2) =
        (l.filter (0 < ·.amount)).map Item.text := by
    rw [List.filter_map, List.map_map]
    rfl
  rw [render, h, if_neg Bool.false_ne_true, ← htexts]
  rfl

theorem seconds_eq (n : Nat) :
    n / 31557600 * 31557600 + n % 31557600 / 2630016 * 2630016 + n % 31557600 % 2630016 / 86400 * 86400 +
      n % 31557600 % 2630016 % 86400 / 3600 * 3600 + n % 31557600 % 2630016 % 86400 % 3600 / 60 * 60 +
      n % 31557600 % 2630016 % 86400 % 60 = n := by
  generalize hday : n % 31557600 % 2630016 % 86400 = inDay
  have h : inDay % 60 = inDay % 3600 % 60 := (Nat.mod_mod_of_dvd inDay ⟨60, rfl⟩).symm
  simp only [h, Nat.add_assoc, Nat.div_add_mod']
  rw [← hday]
  simp only [Nat.div_add_mod']

theorem nanos_eq (n : Nat) : n / 1000000 * 1000000 + n / 1000 % 1000 * 1000 + n % 1000 = n := by
  omega

theorem total_items (s : Span) : Item.total s.items = s.nanos := by
  have hseconds := congrArg (· * 1000000000) (seconds_eq s.seconds)
  have hnanos := nanos_eq s.subsecondNanos
  have hall : s.seconds * 1000000000 + s.subsecondNanos = s.nanos := Nat.div_add_mod' s.nanos 1000000000
  simp only [Nat.add_mul, Nat.mul_assoc, Nat.add_assoc] at hseconds hnanos
  rw [← hall, ← hseconds]
  simp only [items, Item.plural, Item.total_cons, Item.total, Item.worth_seconds, Item.worth_nanos]
  simp only [Nat.add_assoc, Nat.mul_one, Nat.one_mul, Nat.add_zero, hnanos]

theorem total_filter (l : List Item) :
    Item.total (l.filter (0 < ·.amount)) = Item.total l := by
  induction l with
  | nil => rfl
  | cons i rest ih =>
    rw [Item.total_cons, List.filter_cons]
    split
    · rw [Item.total_cons, ih]
    · next hnone =>
      have hzero : i.amount = 0 := by simpa using hnone
      rw [ih, Item.worth, hzero, Nat.zero_mul, Nat.zero_add]

namespace Item

def words : List (String × Measure) :=
  [("year", .seconds 31557600), ("years", .seconds 31557600), ("month", .seconds 2630016),
    ("months", .seconds 2630016), ("day", .seconds 86400), ("days", .seconds 86400), ("h", .seconds 3600),
    ("m", .seconds 60), ("s", .seconds 1), ("ms", .nanos 1000000), ("us", .nanos 1000), ("ns", .nanos 1)]

theorem isReadable_of_word {n : Nat} {word : String} {m : Measure} (hword : (word, m) ∈ words)
    (few : n < Nat.pow 2 64) (below : ∀ k, m = .nanos k → n * k < 1000000000) : IsReadable ⟨n, word, m⟩ := by
  have hall : ∀ e ∈ words, measure? e.1 = some e.2 ∧ e.1.toList ≠ [] ∧
      e.1.toList.all (fun c => isUnitLetter c && !c.isDigit && !Text.isBlank c) = true := by
    decide +kernel
  obtain ⟨hmeasured, hbegins, hletters⟩ := hall _ hword
  exact ⟨hmeasured, hletters, hbegins, few, below⟩

theorem isReadable_plural {n : Nat} {unit : String} {k : Nat} (hone : (unit, .seconds k) ∈ words)
    (hmore : (unit ++ "s", .seconds k) ∈ words) (few : n < Nat.pow 2 64) :
    (plural n unit (.seconds k)).IsReadable := by
  unfold plural
  split
  · exact isReadable_of_word hone few nofun
  · exact isReadable_of_word hmore few nofun

end Item

theorem isReadable_items {s : Span} (h : s.seconds < Nat.pow 2 64) : ∀ i ∈ s.items, i.IsReadable := by
  have hdiv {n : Nat} (hn : n < Nat.pow 2 64) (k : Nat) : n / k < Nat.pow 2 64 :=
    Nat.lt_of_le_of_lt (Nat.div_le_self n k) hn
  have hmod {n : Nat} (hn : n < Nat.pow 2 64) (k : Nat) : n % k < Nat.pow 2 64 :=
    Nat.lt_of_le_of_lt (Nat.mod_le n k) hn
  have hday := hmod (hmod (hmod h 31557600) 2630016) 86400
  have hpart : s.subsecondNanos < 1000000000 := Nat.mod_lt _ (by decide)
  have hpow : Nat.pow 2 64 = 18446744073709551616 := rfl
  simp only [items, List.forall_mem_cons]
  refine ⟨?_, ?_, ?_, ?_, ?_, ?_, ?_, ?_, ?_, nofun⟩
  · exact Item.isReadable_plural (by decide) (by decide) (hdiv h _)
  · exact Item.isReadable_plural (by decide) (by decide) (hdiv (hmod h _) _)
  · exact Item.isReadable_plural (by decide) (by decide) (hdiv (hmod (hmod h _) _) _)
  · exact Item.isReadable_of_word (by decide) (hdiv hday _) nofun
  · exact Item.isReadable_of_word (by decide) (hdiv (hmod hday _) _) nofun
  · exact Item.isReadable_of_word (by decide) (hmod hday _) nofun
  · refine Item.isReadable_of_word (by decide) (by omega) ?_
    rintro _ ⟨⟩
    omega
  · refine Item.isReadable_of_word (by decide) (by omega) ?_
    rintro _ ⟨⟩
    omega
  · refine Item.isReadable_of_word (by decide) (by omega) ?_
    rintro _ ⟨⟩
    omega

end Items

section Reading

theorem withOffsets_append (offset : Nat) (cs ds : List Char) :
    ∃ next, withOffsets offset (cs ++ ds) = withOffsets offset cs ++ withOffsets next ds := by
  induction cs generalizing offset with
  | nil => exact ⟨offset, rfl⟩
  | cons c rest ih =>
    obtain ⟨next, hnext⟩ := ih (offset + c.utf8Size)
    exact ⟨next, congrArg ((offset, c) :: ·) hnext⟩

def Leads (cs : List Char) (r r' : Reading) : Prop :=
  ∀ offset, (withOffsets offset cs).foldlM Reading.step r = .ok r'

theorem Leads.cons {c : Char} {cs : List Char} {r r' r'' : Reading}
    (hstep : ∀ offset, r.step (offset, c) = .ok r') (h : Leads cs r' r'') : Leads (c :: cs) r r'' := by
  intro offset
  rw [withOffsets, List.foldlM_cons, hstep]
  exact h _

theorem Leads.append {cs ds : List Char} {r r' r'' : Reading} (h : Leads cs r r') (hnext : Leads ds r' r'') :
    Leads (cs ++ ds) r r'' := by
  intro offset
  obtain ⟨next, happend⟩ := withOffsets_append offset cs ds
  rw [happend, List.foldlM_append, h]
  exact hnext _

theorem leads_digits (total : Span) {ds : List Char} (hdigits : ∀ c ∈ ds, c.isDigit = true) {n : Nat}
    (h : Nat.ofDigitChars 10 ds n < Nat.pow 2 64) :
    Leads ds ⟨total, .whole n⟩ ⟨total, .whole (Nat.ofDigitChars 10 ds n)⟩ := by
  induction ds generalizing n with
  | nil =>
    intro offset
    simp [withOffsets]
    rfl
  | cons c rest ih =>
    obtain ⟨hc, hrest⟩ := List.forall_mem_cons.mp hdigits
    have hvalue : Nat.ofDigitChars 10 (c :: rest) n = Nat.ofDigitChars 10 rest (n * 10 + digitValue c) := by
      rw [Nat.ofDigitChars_cons, Nat.mul_comm, digitValue]
    rw [hvalue] at h ⊢
    have hword := word_of_lt (Nat.lt_of_le_of_lt (Json.le_ofDigitChars rest _) h)
    refine Leads.cons (fun offset => ?_) (ih hrest h)
    simp only [Reading.step, hc, if_true, hword]
    rfl

theorem isDigit_of_letter {c : Char} (h : (isUnitLetter c && !c.isDigit && !Text.isBlank c) = true) :
    isUnitLetter c = true ∧ c.isDigit = false ∧ Text.isBlank c = false := by
  simp only [Bool.and_eq_true, Bool.not_eq_true'] at h
  exact ⟨h.1.1, h.1.2, h.2⟩

theorem leads_letters {total : Span} {amount : Amount} {cs : List Char}
    (hletters : ∀ c ∈ cs, isUnitLetter c = true ∧ c.isDigit = false ∧ Text.isBlank c = false) (letters : List Char) :
    Leads cs ⟨total, .unit amount letters⟩ ⟨total, .unit amount (letters ++ cs)⟩ := by
  induction cs generalizing letters with
  | nil =>
    intro offset
    rw [List.append_nil]
    rfl
  | cons c rest ih =>
    obtain ⟨⟨hletter, hdigit, hblank⟩, hrest⟩ := List.forall_mem_cons.mp hletters
    have hnext := ih hrest (letters ++ [c])
    rw [List.append_assoc] at hnext
    refine Leads.cons (fun offset => ?_) hnext
    simp only [Reading.step, hletter, hdigit, hblank, Bool.false_eq_true, if_true, if_false]
    rfl

theorem leads_amount (total : Span) (started : Bool) (since : Nat) {n : Nat} (hn : n < Nat.pow 2 64) :
    Leads (toString n).toList ⟨total, .between started since⟩ ⟨total, .whole n⟩ := by
  have htext : (toString n).toList = Nat.toDigits 10 n := by
    rw [Nat.toString_eq_ofList_toDigits, String.toList_ofList]
  have hdigit : ∀ c ∈ Nat.toDigits 10 n, c.isDigit = true := by
    intro c hc
    exact Nat.isDigit_of_mem_toDigits (by decide) (by decide) hc
  have hvalue : Nat.ofDigitChars 10 (Nat.toDigits 10 n) 0 = n := Nat.ofDigitChars_ten_toDigits
  rw [htext]
  cases hdigits : Nat.toDigits 10 n with
  | nil => exact absurd hdigits Nat.toDigits_ne_nil
  | cons c rest =>
    rw [hdigits] at hdigit hvalue
    obtain ⟨hc, hrest⟩ := List.forall_mem_cons.mp hdigit
    have hcons : Nat.ofDigitChars 10 rest (digitValue c) = n := by
      rw [Nat.ofDigitChars_cons, Nat.mul_zero, Nat.zero_add] at hvalue
      exact hvalue
    have hdigits := leads_digits total hrest (hcons ▸ hn)
    rw [hcons] at hdigits
    refine Leads.cons (fun offset => ?_) hdigits
    simp only [Reading.step, hc, if_true]
    rfl

theorem leads_item {i : Item} (hi : i.IsReadable) (total : Span) (started : Bool) (since : Nat) :
    Leads i.text.toList ⟨total, .between started since⟩ ⟨total, .unit ⟨i.amount, 0, 1⟩ i.unit.toList⟩ := by
  have hletters : ∀ c ∈ i.unit.toList, isUnitLetter c = true ∧ c.isDigit = false ∧ Text.isBlank c = false := by
    intro c hc
    exact isDigit_of_letter (List.all_eq_true.mp hi.letters c hc)
  rw [Item.text, String.toList_append]
  refine Leads.append (leads_amount total started since hi.few) ?_
  cases hunit : i.unit.toList with
  | nil => exact absurd hunit hi.begins
  | cons c rest =>
    rw [hunit] at hletters
    obtain ⟨⟨hletter, hdigit, hblank⟩, hrest⟩ := List.forall_mem_cons.mp hletters
    refine Leads.cons (fun offset => ?_) (leads_letters hrest [c])
    simp only [Reading.step, hletter, hdigit, hblank, Bool.false_eq_true, if_true, if_false]
    rfl

theorem plusAmount_item {i : Item} (hi : i.IsReadable) (total : Span)
    (h : total.nanos + i.worth < Nat.pow 2 64 * 1000000000) :
    plusAmount total ⟨i.amount, 0, 1⟩ i.unit = .ok ⟨total.nanos + i.worth⟩ :=
  plusAmount_of_measure hi.measured h hi.below

theorem step_blank {total sum : Span} {amount : Amount} {letters : List Char}
    (h : plusAmount total amount (String.ofList letters) = .ok sum) (offset : Nat) :
    Reading.step ⟨total, .unit amount letters⟩ (offset, ' ') = .ok ⟨sum, .between true (offset + 1)⟩ := by
  have hdigit : ' '.isDigit = false := rfl
  have hblank : Text.isBlank ' ' = true := by decide
  simp only [Reading.step, hdigit, hblank, h, Bool.false_eq_true, if_true, if_false]
  rfl

theorem reads_items {l : List Item} (hl : ∀ i ∈ l, i.IsReadable) (hne : l ≠ []) {total : Span}
    (h : total.nanos + Item.total l < Nat.pow 2 64 * 1000000000) (started : Bool) (since offset : Nat) :
    ∃ r, (withOffsets offset (" ".intercalate (l.map Item.text)).toList).foldlM Reading.step
        ⟨total, .between started since⟩ = .ok r ∧
      ∀ last, r.finish last = .ok ⟨total.nanos + Item.total l⟩ := by
  induction l generalizing total started since offset with
  | nil => exact absurd rfl hne
  | cons i rest ih =>
    obtain ⟨hi, hrest⟩ := List.forall_mem_cons.mp hl
    have hitem := leads_item hi total started since
    rw [Item.total_cons] at h ⊢
    have hplus := plusAmount_item hi total (by omega)
    cases rest with
    | nil =>
      refine ⟨_, hitem offset, fun last => ?_⟩
      simp only [Reading.finish, String.ofList_toList, hplus]
      rfl
    | cons j rest =>
      obtain ⟨next, happend⟩ := withOffsets_append offset i.text.toList
        (' ' :: (" ".intercalate ((j :: rest).map Item.text)).toList)
      have htext : (" ".intercalate ((i :: j :: rest).map Item.text)).toList =
          i.text.toList ++ ' ' :: (" ".intercalate ((j :: rest).map Item.text)).toList := by
        simp [String.intercalate_cons_cons]
      have hblank : Reading.step ⟨total, .unit ⟨i.amount, 0, 1⟩ i.unit.toList⟩ (next, ' ') =
          .ok ⟨⟨total.nanos + i.worth⟩, .between true (next + 1)⟩ := by
        apply step_blank
        rw [String.ofList_toList]
        exact hplus
      have hfits : (Span.mk (total.nanos + i.worth)).nanos + Item.total (j :: rest) <
          Nat.pow 2 64 * 1000000000 := by
        rw [Nat.add_assoc]
        exact h
      obtain ⟨r, hfold, hfinish⟩ := ih hrest (List.cons_ne_nil j rest) hfits true (next + 1) (next + 1)
      refine ⟨r, ?_, fun last => ?_⟩
      · rw [htext, happend, List.foldlM_append, hitem offset]
        show (withOffsets next (' ' :: _)).foldlM Reading.step _ = _
        rw [withOffsets, List.foldlM_cons, hblank]
        exact hfold
      · rw [hfinish, Nat.add_assoc]

theorem parse_of_reads {text : String} {r : Reading} {s : Span}
    (hfold : (withOffsets 0 text.toList).foldlM Reading.step {} = .ok r)
    (hfinish : ∀ last, r.finish last = .ok s) : parse text = .ok s := by
  have hread : (withOffsets 0 text.toList).foldlM Reading.step {} >>= (·.finish text.utf8ByteSize) = .ok s := by
    rw [hfold]
    exact hfinish _
  have hne : text ≠ "0" := by
    rintro rfl
    cases hread
  rw [parse, if_neg hne]
  exact hread

theorem parse_render (s : Span) (h : s.seconds < Nat.pow 2 64) : parse s.render = .ok s := by
  cases hzero : s.isZero with
  | true =>
    have hs : s = zero := by
      cases s
      simpa [isZero, zero] using hzero
    subst hs
    decide +kernel
  | false =>
    let written := s.items.filter (0 < ·.amount)
    have hsum : Item.total written = s.nanos := (total_filter s.items).trans (total_items s)
    have hne : written ≠ [] := by
      intro hnil
      rw [hnil] at hsum
      simp [isZero, ← hsum, Item.total] at hzero
    have hreadable : ∀ i ∈ written, i.IsReadable := fun i hi => isReadable_items h i (List.mem_filter.mp hi).1
    have hfits : zero.nanos + Item.total written < Nat.pow 2 64 * 1000000000 := by
      rw [hsum, zero, Nat.zero_add]
      exact (Nat.div_lt_iff_lt_mul (by decide)).mp h
    obtain ⟨r, hfold, hfinish⟩ := reads_items hreadable hne hfits false 0 0
    rw [render_eq hzero]
    refine parse_of_reads hfold fun last => ?_
    rw [hfinish, hsum, zero, Nat.zero_add]

end Reading

end Span

class LawfulSpanWords [SpanWords] : Prop where
  parse_render (s : Span) : s.seconds < Nat.pow 2 64 → SpanWords.parse (SpanWords.render s) = .ok s

instance : LawfulSpanWords where
  parse_render := Span.parse_render

end MetricReporting
