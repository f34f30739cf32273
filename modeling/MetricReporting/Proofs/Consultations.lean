import Mathlib.Algebra.Group.Int.Defs
import Mathlib.Order.Bounds.Defs
import MetricReporting.Proofs.HighWater

namespace MetricReporting

namespace IdleTable

structure Question where
  name : String
  count : Int64
  suppress : Bool
deriving DecidableEq

def consultAll : List Question → Action IdleTable (List Bool)
  | [] => return []
  | q :: rest => do
    let answer ← consult q.name q.count q.suppress
    return answer :: (← consultAll rest)

def known (t : IdleTable) (questions : List Question) : List (String × Int64) :=
  t.counts.entries ++ (questions.filter (·.suppress)).map fun q => (q.name, q.count)

theorem skip_of_plain (t : IdleTable) (name : String) (count : Int64) : t.skip name count false = (false, t) := rfl

theorem skip_eq_true_iff (t : IdleTable) (name : String) (count : Int64) (suppress : Bool) :
    (t.skip name count suppress).1 = true ↔ suppress = true ∧ ∃ stored, t.get? name = some stored ∧ count ≤ stored := by
  cases suppress with
  | false => simp [skip]
  | true =>
    rw [← isIdle_iff_le]
    by_cases hidle : t.isIdle name count = true <;> simp [skip, hidle]

theorem skip_of_get?_eq {t u : IdleTable} {name : String} (h : u.get? name = t.get? name) (count : Int64)
    (suppress : Bool) :
    (u.skip name count suppress).1 = (t.skip name count suppress).1 ∧
      (u.skip name count suppress).2.get? name = (t.skip name count suppress).2.get? name := by
  have hidle : u.isIdle name count = t.isIdle name count := by
    rw [Bool.eq_iff_iff, isIdle_iff_le, isIdle_iff_le, h]
  cases suppress with
  | false => exact ⟨rfl, h⟩
  | true =>
    cases hno : t.isIdle name count with
    | true => simp [skip, hidle, hno, h]
    | false => simp [skip, hidle, hno, get?]

def Fits (t : IdleTable) (questions : List Question) : Prop :=
  ∀ q ∈ questions, ∀ count, (q.name, count) ∈ t.counts.entries ++ questions.map (fun q => (q.name, q.count)) →
    Word.Holds (q.count.toInt - count.toInt)

theorem Fits.perm {t : IdleTable} {questions questions' : List Question} (h : t.Fits questions)
    (hperm : questions.Perm questions') : t.Fits questions' := by
  intro q hq count hcount
  refine h q (hperm.mem_iff.mpr hq) count ?_
  exact ((hperm.map _).append_left _).mem_iff.mpr hcount

variable {t u v : IdleTable} {answers more : List Bool}

theorem consultAll_cons {q : Question} {rest : List Question} (hfits : t.overflows q.name q.count = false)
    (h : (consultAll rest (t.skip q.name q.count q.suppress).2).Ends (.ok answers) u) :
    (consultAll (q :: rest) t).Ends (.ok ((t.skip q.name q.count q.suppress).1 :: answers)) u := by
  have hconsult : (consult q.name q.count q.suppress t).Ends (.ok (t.skip q.name q.count q.suppress).1)
      (t.skip q.name q.count q.suppress).2 := by
    rw [consult_of_fits hfits]
    exact ⟨rfl, rfl⟩
  exact hconsult.bind_ok (h.bind_ok ⟨rfl, rfl⟩)

theorem of_consultAll_cons {q : Question} {rest : List Question}
    (h : (consultAll (q :: rest) t).Ends (.ok answers) u) :
    t.overflows q.name q.count = false ∧ ∃ more, answers = (t.skip q.name q.count q.suppress).1 :: more ∧
      (consultAll rest (t.skip q.name q.count q.suppress).2).Ends (.ok more) u := by
  cases hoverflows : t.overflows q.name q.count with
  | true =>
    obtain ⟨_, hconsult, -⟩ := Action.result_bind_eq_ok h.1
    rw [consult_of_overflows hoverflows] at hconsult
    cases hconsult
  | false =>
    refine ⟨rfl, ?_⟩
    cases hrest : (consultAll rest (t.skip q.name q.count q.suppress).2).result with
    | error fault =>
      obtain ⟨_, hconsult, hlater, -⟩ := Action.result_bind_eq_ok h.1
      rw [consult_of_fits hoverflows] at hlater
      rw [Action.bind_of_error hrest] at hlater
      cases hlater
    | ok more =>
      have hall := consultAll_cons hoverflows (.self _ hrest)
      cases hall.1.symm.trans h.1
      exact ⟨more, rfl, hrest, hall.2.symm.trans h.2⟩

theorem length_of_consultAll {questions : List Question} (h : (consultAll questions t).Ends (.ok answers) u) :
    answers.length = questions.length := by
  induction questions generalizing t answers with
  | nil =>
    cases h.1
    rfl
  | cons q rest ih =>
    obtain ⟨-, more, rfl, hrest⟩ := of_consultAll_cons h
    exact congrArg (· + 1) (ih hrest)

theorem consultAll_append {before after : List Question} (h : (consultAll before t).Ends (.ok answers) u)
    (hafter : (consultAll after u).Ends (.ok more) v) :
    (consultAll (before ++ after) t).Ends (.ok (answers ++ more)) v := by
  induction before generalizing t answers with
  | nil =>
    obtain ⟨hnone, hsame⟩ := h
    cases hnone
    cases hsame
    exact hafter
  | cons q rest ih =>
    obtain ⟨hfits, answers', rfl, hrest⟩ := of_consultAll_cons h
    exact consultAll_cons hfits (ih hrest)

theorem of_consultAll_append {before after : List Question} (h : (consultAll (before ++ after) t).Ends (.ok answers) v) :
    ∃ first more u, answers = first ++ more ∧ (consultAll before t).Ends (.ok first) u ∧
      (consultAll after u).Ends (.ok more) v := by
  induction before generalizing t answers with
  | nil => exact ⟨[], answers, t, rfl, ⟨rfl, rfl⟩, h⟩
  | cons q rest ih =>
    obtain ⟨hfits, answers', rfl, hrest⟩ := of_consultAll_cons h
    obtain ⟨first, more, u, rfl, hfirst, hmore⟩ := ih hrest
    exact ⟨_, more, u, rfl, consultAll_cons hfits hfirst, hmore⟩

theorem get?_skip_cases (t : IdleTable) (q : Question) (name : String) :
    (t.skip q.name q.count q.suppress).2.get? name = t.get? name ∨
      q.name = name ∧ (t.skip q.name q.count q.suppress).2.get? name = some q.count := by
  by_cases hname : q.name = name
  · subst hname
    unfold skip
    split
    · exact .inl rfl
    · split
      · exact .inl rfl
      · exact .inr ⟨rfl, NameMap.get?_insert_self t.counts q.name q.count⟩
  · exact .inl (get?_skip_of_ne t q.count q.suppress hname)

theorem exists_answers_of_holds {readings : List (String × Int64)} (questions : List Question) {t : IdleTable}
    (hstored : ∀ name count, t.get? name = some count → (name, count) ∈ readings)
    (hasked : ∀ q ∈ questions, (q.name, q.count) ∈ readings)
    (hholds : ∀ q ∈ questions, ∀ count, (q.name, count) ∈ readings → Word.Holds (q.count.toInt - count.toInt)) :
    ∃ answers u, (consultAll questions t).Ends (.ok answers) u := by
  induction questions generalizing t with
  | nil => exact ⟨[], t, rfl, rfl⟩
  | cons q rest ih =>
    obtain ⟨hfirst, hrest⟩ := List.forall_mem_cons.mp hasked
    obtain ⟨hholds₁, hholds⟩ := List.forall_mem_cons.mp hholds
    have hfits : t.overflows q.name q.count = false := by
      rw [overflows]
      cases hget : t.get? q.name with
      | none => rfl
      | some stored =>
        rw [Option.any_some, decide_eq_false_iff_not]
        exact Int.not_lt.mpr (hholds₁ stored (hstored _ _ hget)).2
    obtain ⟨answers, u, hends⟩ := ih (t := (t.skip q.name q.count q.suppress).2) (fun name count hget => by
      rcases t.get?_skip_cases q name with hsame | ⟨rfl, hnew⟩
      · exact hstored name count (hsame.symm.trans hget)
      · cases hnew.symm.trans hget
        exact hfirst) hrest hholds
    exact ⟨_, u, consultAll_cons hfits hends⟩

theorem exists_answers {questions : List Question} (h : t.Fits questions) :
    ∃ answers u, (consultAll questions t).Ends (.ok answers) u := by
  refine exists_answers_of_holds questions (fun name count hget => ?_) (fun q hq => ?_) h
  · exact List.mem_append_left _ (NameMap.get?_eq_some_iff.mp hget)
  · exact List.mem_append_right _ (List.mem_map_of_mem hq)

theorem HighWater.eq_of_mem_iff {readings readings' : List (String × Int64)} (h : t.HighWater readings)
    (h' : u.HighWater readings') (hmem : ∀ r, r ∈ readings ↔ r ∈ readings') : t = u := by
  have hcounts : t.counts = u.counts := by
    apply NameMap.ext_get?
    intro name
    apply Option.ext
    intro count
    exact (h.get?_eq_some_iff name count).trans
      ((and_congr (hmem _) (forall_congr' fun c => imp_congr_left (hmem _))).trans (h'.get?_eq_some_iff name count).symm)
  cases t
  cases u
  cases hcounts
  rfl

theorem HighWater.consultAll {readings : List (String × Int64)} (h : t.HighWater readings) {questions : List Question}
    (hends : (consultAll questions t).Ends (.ok answers) u) :
    u.HighWater (readings ++ (questions.filter (·.suppress)).map fun q => (q.name, q.count)) := by
  induction questions generalizing t readings answers with
  | nil =>
    obtain ⟨-, rfl⟩ := hends
    rw [List.filter_nil, List.map_nil, List.append_nil]
    exact h
  | cons q rest ih =>
    obtain ⟨-, more, -, hrest⟩ := of_consultAll_cons hends
    cases hsuppress : q.suppress with
    | false =>
      rw [hsuppress, skip_of_plain] at hrest
      rw [List.filter_cons_of_neg (by simp [hsuppress])]
      exact ih h hrest
    | true =>
      rw [hsuppress] at hrest
      rw [List.filter_cons_of_pos hsuppress, List.map_cons, List.append_cons]
      exact ih (h.skip q.name q.count) hrest

theorem highWater_known {questions : List Question} (hends : (consultAll questions t).Ends (.ok answers) u) :
    u.HighWater (t.known questions) := (HighWater.self t).consultAll hends

theorem get?_eq_some_iff_of_consultAll {questions : List Question}
    (hends : (consultAll questions t).Ends (.ok answers) u) (name : String) (count : Int64) :
    u.get? name = some count ↔ IsGreatest {c | (name, c) ∈ t.known questions} count :=
  (highWater_known hends).get?_eq_some_iff name count

theorem mem_known_of_perm (t : IdleTable) {questions questions' : List Question} (h : questions.Perm questions')
    (r : String × Int64) : r ∈ t.known questions ↔ r ∈ t.known questions' :=
  (((h.filter _).map _).append_left _).mem_iff

theorem consultAll_alone (name : String) {questions : List Question} {t u v : IdleTable}
    (h : u.get? name = t.get? name) (hends : (consultAll questions t).Ends (.ok answers) v) :
    ∃ w, (consultAll (questions.filter (·.name == name)) u).Ends
        (.ok (((questions.zip answers).filter (·.1.name == name)).map Prod.snd)) w ∧ w.get? name = v.get? name := by
  -- The tables agree on the name and may differ in every other one.
  induction questions generalizing t u answers with
  | nil =>
    obtain ⟨⟨⟩, rfl⟩ := hends
    exact ⟨u, ⟨rfl, rfl⟩, h⟩
  | cons q rest ih =>
    obtain ⟨hfits, more, rfl, hrest⟩ := of_consultAll_cons hends
    by_cases hname : q.name = name
    · subst hname
      obtain ⟨hanswer, hstored⟩ := skip_of_get?_eq h q.count q.suppress
      obtain ⟨w, halone, hget⟩ := ih hstored hrest
      have hfits' : u.overflows q.name q.count = false := by
        rw [overflows, h]
        exact hfits
      have hall := consultAll_cons hfits' halone
      rw [hanswer] at hall
      refine ⟨w, ?_, hget⟩
      rw [List.filter_cons_of_pos (by simp)]
      simpa using hall
    · obtain ⟨w, halone, hget⟩ := ih (h.trans (get?_skip_of_ne t q.count q.suppress hname).symm) hrest
      refine ⟨w, ?_, hget⟩
      rw [List.filter_cons_of_neg (by simp [hname])]
      simpa [hname] using halone

/-- However often a table is consulted, it leaves out what is not above the greatest of the counts known under its name,
and then has that one. So questions under other names and the order of questions do not matter to it, and a question
without suppression is answered with no and passes it by. If words hold all differences, all questions are answered, in
whatever order. -/
theorem consultations_follow_greatest (t : IdleTable) :
    (∀ before q after answers u, (consultAll (before ++ q :: after) t).Ends (.ok answers) u →
      ∃ first answer last, answers = first ++ answer :: last ∧
        first.length = before.length ∧ last.length = after.length ∧
        (answer = true ↔ q.suppress = true ∧
          ∃ greatest, IsGreatest {c | (q.name, c) ∈ t.known before} greatest ∧ q.count ≤ greatest)) ∧
    (∀ questions answers u, (consultAll questions t).Ends (.ok answers) u →
      ∀ name stored, u.get? name = some stored ↔ IsGreatest {c | (name, c) ∈ t.known questions} stored) ∧
    (∀ questions questions' answers answers' u u', questions.Perm questions' →
      (consultAll questions t).Ends (.ok answers) u → (consultAll questions' t).Ends (.ok answers') u' → u' = u) ∧
    (∀ questions answers u name, (consultAll questions t).Ends (.ok answers) u →
      ∃ v, (consultAll (questions.filter (·.name == name)) t).Ends
        (.ok (((questions.zip answers).filter (·.1.name == name)).map Prod.snd)) v ∧ v.get? name = u.get? name) ∧
    (∀ before name count after answers u,
      (consultAll (before ++ ⟨name, count, false⟩ :: after) t).Ends (.ok answers) u →
      ∃ first last, answers = first ++ false :: last ∧ first.length = before.length ∧
        (consultAll (before ++ after) t).Ends (.ok (first ++ last)) u) ∧
    (∀ questions questions', t.Fits questions → questions.Perm questions' →
      ∃ answers u, (consultAll questions' t).Ends (.ok answers) u) := by
  refine ⟨?_, fun _ _ _ hends => get?_eq_some_iff_of_consultAll hends, ?_,
    fun _ _ _ name hends => consultAll_alone name rfl hends, ?_, fun _ _ h hperm => exists_answers (h.perm hperm)⟩
  · intro before q after answers v hends
    obtain ⟨first, more, u, rfl, hfirst, hmore⟩ := of_consultAll_append hends
    obtain ⟨-, last, rfl, hlast⟩ := of_consultAll_cons hmore
    refine ⟨first, _, last, rfl, length_of_consultAll hfirst, length_of_consultAll hlast, ?_⟩
    rw [skip_eq_true_iff]
    simp only [get?_eq_some_iff_of_consultAll hfirst]
  · intro questions questions' answers answers' u u' hperm hends hends'
    exact (highWater_known hends').eq_of_mem_iff (highWater_known hends) (t.mem_known_of_perm hperm.symm)
  · intro before name count after answers v hends
    obtain ⟨first, more, u, rfl, hfirst, hmore⟩ := of_consultAll_append hends
    obtain ⟨-, last, rfl, hlast⟩ := of_consultAll_cons hmore
    exact ⟨first, last, rfl, length_of_consultAll hfirst, consultAll_append hfirst hlast⟩

theorem consultations_follow_greatest_in_two_orders :
    let t : IdleTable := ⟨NameMap.empty.insert "a" 5⟩
    let questions : List Question :=
      [⟨"a", 3, true⟩, ⟨"b", -2, true⟩, ⟨"a", 9, false⟩, ⟨"a", 7, true⟩, ⟨"b", -4, true⟩]
    (consultAll questions t).result = .ok [true, false, false, false, true] ∧
      questions.Perm questions.reverse ∧
      (consultAll questions.reverse t).state = (consultAll questions t).state ∧
      (consultAll questions t).state.get? "a" = some 7 := by
  intro t questions
  have hreverse : questions.Perm questions.reverse := questions.reverse_perm.symm
  have hanswers : (consultAll questions t).result = .ok [true, false, false, false, true] := by decide +kernel
  have hanswers' : (consultAll questions.reverse t).result = .ok [false, false, false, false, true] := by decide +kernel
  have hsame := (consultations_follow_greatest t).2.2.1 questions questions.reverse _ _ _ _ hreverse
    (.self _ hanswers) (.self _ hanswers')
  exact ⟨hanswers, hreverse, hsame, by decide +kernel⟩

structure Tells (t : IdleTable) (name : String) (count progress : Int64) : Prop where
  unknown : progress = -1 ↔ t.get? name = none
  known (stored : Int64) : t.get? name = some stored →
    0 ≤ progress ∧ progress.toInt = max 0 (count.toInt - stored.toInt) ∧ (progress = 0 ↔ count ≤ stored)
  fits (stored : Int64) : t.get? name = some stored → stored ≤ count →
    (count - stored).toInt = count.toInt - stored.toInt

theorem toInt_of_progress {t : IdleTable} {name : String} {count stored progress : Int64}
    (hstored : t.get? name = some stored) (h : t.progress name count = .ok progress) :
    progress.toInt = max 0 (count.toInt - stored.toInt) ∧
      (stored ≤ count → (count - stored).toInt = count.toInt - stored.toInt) := by
  rw [progress_of_some hstored] at h
  by_cases hback : count < stored
  · rw [if_pos hback] at h
    cases h
    have hnegative := Int64.lt_iff_toInt_lt.mp hback
    refine ⟨?_, fun hle => absurd hback (Int64.not_lt.mpr hle)⟩
    rw [Int64.toInt_zero]
    omega
  · rw [if_neg hback] at h
    have hpositive := Int64.le_iff_toInt_le.mp (Int64.not_lt.mp hback)
    by_cases hholds : Word.Holds (count.toInt - stored.toInt)
    · have hexact := (Word.toInt_sub_eq_iff count stored).mpr hholds
      rw [Word.subtract_of_holds hholds] at h
      cases h
      exact ⟨by omega, fun _ => hexact⟩
    · rw [Word.subtract_of_not_holds hholds] at h
      cases h

theorem tells_of_progress {t : IdleTable} {name : String} {count progress : Int64}
    (h : t.progress name count = .ok progress) : t.Tells name count progress := by
  cases hstored : t.get? name with
  | none =>
    rw [progress_of_none hstored] at h
    cases h
    refine ⟨by simp [hstored], ?_, ?_⟩ <;> intro stored hno <;> cases hstored.symm.trans hno
  | some stored =>
    obtain ⟨hprogress, hexact⟩ := toInt_of_progress hstored h
    constructor
    · refine iff_of_false (fun hunknown => ?_) (by simp [hstored])
      rw [hunknown, show (-1 : Int64).toInt = -1 from rfl] at hprogress
      omega
    · intro stored' h'
      cases hstored.symm.trans h'
      rw [← Int64.toInt_inj, Int64.le_iff_toInt_le, Int64.le_iff_toInt_le, Int64.toInt_zero]
      omega
    · intro stored' h' hle
      cases hstored.symm.trans h'
      exact hexact hle

theorem overflows_eq_false_iff (t : IdleTable) (name : String) (count : Int64) :
    t.overflows name count = false ↔
      ∀ stored, t.get? name = some stored → count.toInt - stored.toInt < 2 ^ 63 := by
  have hmax : Int64.maxValue.toInt = 2 ^ 63 - 1 := rfl
  rw [overflows, hmax]
  cases t.get? name with
  | none => simp
  | some stored =>
    simp only [Option.any_some, decide_eq_false_iff_not, Option.some.injEq, forall_eq']
    omega

theorem exists_consultAll_eq (t : IdleTable) : ∃ questions answers, (consultAll questions {}).Ends (.ok answers) t := by
  let questions : List Question := t.counts.entries.map fun e => ⟨e.1, e.2, true⟩
  have hall : ∀ q ∈ questions, q.suppress = true := List.forall_mem_map.mpr fun _ _ => rfl
  have hentries : questions.map (fun q => (q.name, q.count)) = t.counts.entries := by
    rw [List.map_map]
    exact List.map_id _
  have hknown : known {} questions = t.counts.entries := by
    rw [known, List.filter_eq_self.mpr hall]
    exact hentries
  -- No name is asked about twice, so nothing is stored yet under any of them.
  have hfits : Fits {} questions := by
    intro q hq count hcount
    rw [hentries] at hcount
    obtain ⟨e, he, rfl⟩ := List.mem_map.mp hq
    have hsame := (NameMap.get?_eq_some_iff.mpr hcount).symm.trans (NameMap.get?_eq_some_iff.mpr he)
    cases hsame
    rw [Int.sub_self]
    decide
  obtain ⟨answers, u, hends⟩ := exists_answers hfits
  have hsame : u = t := (highWater_known hends).eq_of_mem_iff (HighWater.self t) fun r => by rw [hknown]
  exact ⟨questions, answers, hsame ▸ hends⟩

/-- Every table can come about. How far a count is past the stored one is told, and told exactly, if a word holds the
difference; if none does, there is a panic. -/
theorem measures_exactly_iff (t : IdleTable) (name : String) (count : Int64) :
    (∃ questions answers, (consultAll questions {}).Ends (.ok answers) t) ∧
    ((∃ progress, (measure name count t).Ends (.ok progress) t ∧ t.Tells name count progress) ↔
      ∀ stored, t.get? name = some stored → count.toInt - stored.toInt < 2 ^ 63) ∧
    ((∃ stored, t.get? name = some stored ∧ 2 ^ 63 ≤ count.toInt - stored.toInt) →
      (measure name count t).Ends (.error (.panic Word.subtractOverflow)) t) := by
  have hmeasure := measure_apply t name count
  refine ⟨t.exists_consultAll_eq, ?_, ?_⟩
  · rw [← overflows_eq_false_iff]
    constructor
    · rintro ⟨progress, ⟨hok, -⟩, -⟩
      by_contra hoverflows
      rw [hmeasure, progress_of_overflows (Bool.of_not_eq_false hoverflows)] at hok
      cases hok
    · intro hfits
      obtain ⟨progress, hprogress⟩ := exists_progress hfits
      rw [hmeasure, hprogress]
      exact ⟨progress, ⟨rfl, rfl⟩, tells_of_progress hprogress⟩
  · rintro ⟨stored, hstored, hexceeds⟩
    have hoverflows : t.overflows name count = true := by
      by_contra hno
      have hfits := (t.overflows_eq_false_iff name count).mp (Bool.eq_false_iff.mpr hno) stored hstored
      omega
    rw [hmeasure, progress_of_overflows hoverflows]
    exact ⟨rfl, rfl⟩

theorem greatest_count_not_measured_against_least :
    let t := (consultAll [⟨"load", Int64.minValue, true⟩] {}).state
    t.get? "load" = some Int64.minValue ∧
      (measure "load" Int64.maxValue t).Ends (.error (.panic Word.subtractOverflow)) t := by
  intro t
  have hstored : t.get? "load" = some Int64.minValue := by decide +kernel
  have hoverflows : t.overflows "load" Int64.maxValue = true := by
    rw [overflows, hstored]
    decide
  refine ⟨hstored, ?_⟩
  rw [measure_apply, progress_of_overflows hoverflows]
  exact ⟨rfl, rfl⟩

end IdleTable

end MetricReporting
