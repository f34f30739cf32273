import MetricReporting.Proofs.Objects
import MetricReporting.Report.Cycle

namespace MetricReporting

def Kind.isMetered : Kind → Bool
  | meter | timer => true
  | gauge | counter | histogram => false

theorem Metric.exists_count {x : Metric} (hx : x.kind.isMetered = true) (s : Store) :
    ∃ count, x.count? s = some count := by
  obtain ⟨kind, h⟩ := x
  cases kind with
  | gauge => cases hx
  | counter => cases hx
  | histogram => cases hx
  | meter => exact ⟨_, rfl⟩
  | timer => exact ⟨_, rfl⟩

namespace IdleTable

def overflows (t : IdleTable) (name : String) (count : Int64) : Bool :=
  (t.get? name).any fun stored => decide (Int64.maxValue.toInt < count.toInt - stored.toInt)

theorem progress_of_none {t : IdleTable} {name : String} (h : t.get? name = none) (count : Int64) :
    t.progress name count = .ok (-1) := by
  rw [progress, h]

theorem progress_of_some {t : IdleTable} {name : String} {stored : Int64} (h : t.get? name = some stored)
    (count : Int64) :
    t.progress name count = if count < stored then .ok 0 else Word.subtract count stored := by
  rw [progress, h]

theorem holds_sub_iff {stored count : Int64} (h : ¬ count < stored) :
    Word.Holds (count.toInt - stored.toInt) ↔ count.toInt - stored.toInt ≤ Int64.maxValue.toInt := by
  rw [Int64.lt_iff_toInt_lt] at h
  refine ⟨fun hholds => hholds.2, fun hle => ⟨?_, hle⟩⟩
  exact Int.le_trans (by decide) (Int.sub_nonneg_of_le (Int.not_lt.mp h))

theorem progress_cases (t : IdleTable) (name : String) (count : Int64) :
    (t.overflows name count = true ∧ t.progress name count = .error Word.subtractOverflow) ∨
      (t.overflows name count = false ∧ ∃ progress, t.progress name count = .ok progress) := by
  cases hstored : t.get? name with
  | none =>
    refine .inr ⟨?_, -1, progress_of_none hstored count⟩
    rw [overflows, hstored, Option.any_none]
  | some stored =>
    rw [overflows, hstored, Option.any_some, decide_eq_true_iff, decide_eq_false_iff_not, progress_of_some hstored]
    by_cases hback : count < stored
    · have hnegative := Int64.lt_iff_toInt_lt.mp hback
      have hmax : Int64.maxValue.toInt = 9223372036854775807 := rfl
      rw [if_pos hback]
      exact .inr ⟨by omega, 0, rfl⟩
    · rw [if_neg hback]
      by_cases hholds : Word.Holds (count.toInt - stored.toInt)
      · rw [Word.subtract_of_holds hholds]
        exact .inr ⟨Int.not_lt.mpr ((holds_sub_iff hback).mp hholds), _, rfl⟩
      · rw [Word.subtract_of_not_holds hholds]
        exact .inl ⟨Int.not_le.mp fun hle => hholds ((holds_sub_iff hback).mpr hle), rfl⟩

theorem progress_of_overflows {t : IdleTable} {name : String} {count : Int64} (h : t.overflows name count = true) :
    t.progress name count = .error Word.subtractOverflow := by
  rcases t.progress_cases name count with ⟨-, herror⟩ | ⟨hno, -⟩
  · exact herror
  · cases h.symm.trans hno

theorem exists_progress {t : IdleTable} {name : String} {count : Int64} (h : t.overflows name count = false) :
    ∃ progress, t.progress name count = .ok progress := by
  rcases t.progress_cases name count with ⟨hyes, -⟩ | ⟨-, hok⟩
  · cases hyes.symm.trans h
  · exact hok

theorem measure_apply (t : IdleTable) (name : String) (count : Int64) :
    measure name count t = ⟨(t.progress name count).mapError .panic, t, t.warnings name count⟩ := by
  cases hprogress : t.progress name count with
  | ok progress =>
    simp [measure, Action.bind_apply, Action.get, Action.forM_log, hprogress, Action.orPanic, Action.pure,
      Except.mapError]
  | error payload =>
    simp [measure, Action.bind_apply, Action.get, Action.forM_log, hprogress, Action.orPanic, Action.panic,
      Action.stop, Except.mapError]

theorem warnings_of_overflows {t : IdleTable} {name : String} {count : Int64} (h : t.overflows name count = true) :
    t.warnings name count = [] := by
  rw [overflows] at h
  rw [warnings]
  cases hstored : t.get? name with
  | none => rfl
  | some stored =>
    rw [hstored, Option.any_some, decide_eq_true_iff] at h
    refine if_neg fun hback => ?_
    have hnegative := Int64.lt_iff_toInt_lt.mp hback
    have hmax : Int64.maxValue.toInt = 9223372036854775807 := rfl
    omega

theorem consult_of_overflows {t : IdleTable} {name : String} {count : Int64} (h : t.overflows name count = true)
    (suppress : Bool) : consult name count suppress t = ⟨.error (.panic Word.subtractOverflow), t, []⟩ := by
  have hmeasure := measure_apply t name count
  rw [progress_of_overflows h, warnings_of_overflows h] at hmeasure
  rw [consult, Action.bind_of_error (by rw [hmeasure]; rfl), hmeasure]

theorem consult_of_fits {t : IdleTable} {name : String} {count : Int64} (h : t.overflows name count = false)
    (suppress : Bool) :
    consult name count suppress t =
      ⟨.ok (t.skip name count suppress).1, (t.skip name count suppress).2, t.warnings name count⟩ := by
  have hmeasure := measure_apply t name count
  obtain ⟨progress, hprogress⟩ := exists_progress h
  rw [hprogress] at hmeasure
  rw [consult, Action.bind_of_ok (by rw [hmeasure]; rfl), hmeasure]
  simp [Action.modifyGet]

theorem get?_skip_of_ne (t : IdleTable) {name other : String} (count : Int64) (suppress : Bool) (h : other ≠ name) :
    (t.skip other count suppress).2.get? name = t.get? name := by
  unfold skip
  split
  · rfl
  · split
    · rfl
    · exact NameMap.get?_insert_of_ne t.counts count h

theorem isIdle_iff_le (t : IdleTable) (name : String) (count : Int64) :
    t.isIdle name count = true ↔ ∃ stored, t.get? name = some stored ∧ count ≤ stored := by
  unfold isIdle
  cases hstored : t.get? name with
  | none =>
    rw [progress_of_none hstored]
    simp
  | some stored =>
    rw [progress_of_some hstored]
    simp only [Option.some.injEq, exists_eq_left']
    by_cases hlt : count < stored
    · rw [if_pos hlt]
      exact ⟨fun _ => Int64.le_of_lt hlt, fun _ => rfl⟩
    · rw [if_neg hlt]
      have hle : count ≤ stored ↔ count = stored :=
        ⟨fun hle => Int64.le_antisymm hle (Int64.not_lt.mp hlt), fun heq => Int64.le_of_eq heq⟩
      rw [hle]
      by_cases hholds : Word.Holds (count.toInt - stored.toInt)
      · rw [Word.subtract_of_holds hholds]
        simp only [beq_iff_eq]
        grind
      · rw [Word.subtract_of_not_holds hholds]
        refine ⟨nofun, ?_⟩
        rintro rfl
        rw [Int.sub_self] at hholds
        exact absurd (by decide) hholds

theorem isIdle_iff (t : IdleTable) (name : String) (count : Int64)
    (h : ∀ stored, t.get? name = some stored → stored ≤ count) :
    t.isIdle name count = true ↔ t.get? name = some count := by
  rw [isIdle_iff_le]
  constructor
  · rintro ⟨stored, hstored, hle⟩
    rw [hstored, Int64.le_antisymm (h stored hstored) hle]
  · intro hstored
    exact ⟨count, hstored, Int64.le_refl count⟩

theorem skip_of_le (t : IdleTable) (name : String) (count : Int64)
    (h : ∀ stored, t.get? name = some stored → stored ≤ count) :
    ((t.skip name count true).1 = true ↔ t.get? name = some count) ∧
      (t.skip name count true).2.get? name = some count := by
  have hidle := t.isIdle_iff name count h
  unfold skip
  rw [Bool.not_true, if_neg Bool.false_ne_true]
  by_cases hstored : t.get? name = some count
  · rw [if_pos (hidle.mpr hstored)]
    exact ⟨⟨fun _ => hstored, fun _ => rfl⟩, hstored⟩
  · rw [if_neg (fun hyes => hstored (hidle.mp hyes))]
    exact ⟨⟨nofun, fun hyes => absurd hyes hstored⟩, NameMap.get?_insert_self t.counts name count⟩

end IdleTable

def Metric.countPanic? (s : Store) : Metric → Option Panic
  | ⟨.meter, h⟩ => if Meter.poisoned (s.get h) then some Metered.poison else none
  | _ => none

theorem Metric.readCount_of_panic {s : Store} {x : Metric} {payload : Panic} (h : x.countPanic? s = some payload) :
    x.readCount s = ⟨.error (.panic payload), s, []⟩ := by
  obtain ⟨kind, handle⟩ := x
  cases kind with
  | gauge => cases h
  | counter => cases h
  | histogram => cases h
  | timer => cases h
  | meter =>
    cases hpoisoned : Meter.poisoned (s.get handle) with
    | true =>
      cases (if_pos hpoisoned : Metric.countPanic? s ⟨.meter, handle⟩ = _).symm.trans h
      have hheld : Metered.hold (.meter handle) s = ⟨.error (.panic Metered.poison), s, []⟩ :=
        Metered.hold_of_poisoned hpoisoned
      rw [readCount, Action.bind_of_error (by rw [hheld]), hheld]
    | false => cases (if_neg (ne_true_of_eq_false hpoisoned) : Metric.countPanic? s ⟨.meter, handle⟩ = _).symm.trans h

theorem Metric.readCount_of_calm {s : Store} {x : Metric} (h : x.countPanic? s = none) :
    x.readCount s = ⟨.ok (x.count? s), s, []⟩ := by
  obtain ⟨kind, handle⟩ := x
  cases kind with
  | gauge => rfl
  | counter => rfl
  | histogram => rfl
  | timer => rfl
  | meter =>
    cases hpoisoned : Meter.poisoned (s.get handle) with
    | true => cases (if_pos hpoisoned : Metric.countPanic? s ⟨.meter, handle⟩ = _).symm.trans h
    | false =>
      have hheld : Metered.hold (.meter handle) s = ⟨.ok (Metered.get s (.meter handle)), s, []⟩ :=
        Metered.hold_of_sound hpoisoned
      rw [readCount, Action.bind_of_ok (by rw [hheld]), hheld]
      rfl

theorem Metric.isSome_metered? (x : Metric) : x.metered?.isSome = x.kind.isMetered := by
  obtain ⟨kind, handle⟩ := x
  cases kind <;> rfl

theorem Metric.countPanic?_eq_none_iff (x : Metric) (s : Store) :
    x.countPanic? s = none ↔ (x.isPoisoned s = true → x.kind = .timer) := by
  obtain ⟨kind, handle⟩ := x
  cases kind with
  | gauge => exact ⟨nofun, fun _ => rfl⟩
  | counter => exact ⟨nofun, fun _ => rfl⟩
  | histogram => exact ⟨nofun, fun _ => rfl⟩
  | meter => simp [countPanic?, isPoisoned, Kind.isPoisoned]
  | timer => exact ⟨fun _ _ => rfl, fun _ => rfl⟩

theorem Metric.countPanic?_of_sameCounts {s s' : Store} (h : s.SameCounts s') (x : Metric) :
    x.countPanic? s' = x.countPanic? s := by
  obtain ⟨kind, handle⟩ := x
  cases kind with
  | gauge => rfl
  | counter => rfl
  | histogram => rfl
  | meter => exact congrArg (fun poisoned => if poisoned then some Metered.poison else none) (h.poisoned ⟨.meter, handle⟩)
  | timer => rfl

theorem Metric.panic?_eq_none_iff (x : Metric) (s : Store) :
    x.panic? s = none ↔ (x.kind = .gauge → x.panic? s = none) ∧ x.isPoisoned s = false := by
  obtain ⟨kind, handle⟩ := x
  cases kind with
  | gauge => exact ⟨fun h => ⟨fun _ => h, rfl⟩, fun h => h.1 rfl⟩
  | counter => exact ⟨fun _ => ⟨nofun, rfl⟩, fun _ => rfl⟩
  | histogram => exact ⟨fun _ => ⟨nofun, rfl⟩, fun _ => rfl⟩
  | meter => simp [panic?]
  | timer => simp [panic?]

namespace Cycle

def activity? (s : Store) (metric : Metric) : Option Int64 := if metric.kind.isMetered then metric.count? s else none

def judge (settings : CycleSettings) (t : IdleTable) (s : Store) (name : String) (metric : Metric) :
    Bool × IdleTable :=
  match activity? s metric with
  | none => (false, t)
  | some count => t.skip name count settings.skipIdle

def warnings (t : IdleTable) (s : Store) (name : String) (metric : Metric) : List Event :=
  match activity? s metric with
  | none => []
  | some count => t.warnings name count

def outruns (t : IdleTable) (s : Store) (name : String) (metric : Metric) : Bool :=
  (activity? s metric).any (t.overflows name)

def judgePanic? (t : IdleTable) (s : Store) (name : String) (metric : Metric) : Option Panic :=
  match metric.countPanic? s with
  | some payload => some payload
  | none => if outruns t s name metric then some Word.subtractOverflow else none

/-- What a visit panics with: the filter, the decision whether the metric is left out, or reading it if it is not. -/
def panic? (settings : CycleSettings) (t : IdleTable) (s : Store) (name : String) (metric : Metric) : Option Panic :=
  match settings.filter s name metric with
  | .error payload => some payload
  | .ok false => none
  | .ok true =>
    match judgePanic? t s name metric with
    | some payload => some payload
    | none => if (judge settings t s name metric).1 then none else metric.panic? s

theorem activity_of_panic {s : Store} {metric : Metric} {payload : Panic} (h : metric.countPanic? s = some payload) :
    activity metric s = ⟨.error (.panic payload), s, []⟩ := by
  have hmetered : metric.metered?.isSome = true := by
    obtain ⟨kind, handle⟩ := metric
    cases kind <;> first | rfl | cases h
  rw [activity, if_pos hmetered, Metric.readCount_of_panic h]

theorem activity_of_calm {s : Store} {metric : Metric} (h : metric.countPanic? s = none) :
    activity metric s = ⟨.ok (activity? s metric), s, []⟩ := by
  rw [activity, metric.isSome_metered?, activity?]
  split
  · exact Metric.readCount_of_calm h
  · rfl

theorem of_judgePanic?_eq_some {t : IdleTable} {s : Store} {name : String} {metric : Metric} {payload : Panic}
    (h : judgePanic? t s name metric = some payload) :
    metric.countPanic? s = some payload ∨
      metric.countPanic? s = none ∧ payload = Word.subtractOverflow ∧
        ∃ count, activity? s metric = some count ∧ t.overflows name count = true := by
  rw [judgePanic?] at h
  cases hcount : metric.countPanic? s with
  | some other =>
    rw [hcount] at h
    exact .inl h
  | none =>
    rw [hcount] at h
    cases hruns : outruns t s name metric with
    | false => simp [hruns] at h
    | true =>
      obtain ⟨count, hactive, hoverflows⟩ := (Option.any_eq_true _ _).mp hruns
      have hpayload : Word.subtractOverflow = payload := by simpa [hruns] using h
      exact .inr ⟨rfl, hpayload.symm, count, hactive, hoverflows⟩

theorem of_judgePanic?_eq_none {t : IdleTable} {s : Store} {name : String} {metric : Metric}
    (h : judgePanic? t s name metric = none) :
    metric.countPanic? s = none ∧ ∀ count, activity? s metric = some count → t.overflows name count = false := by
  rw [judgePanic?] at h
  cases hcount : metric.countPanic? s with
  | some other =>
    rw [hcount] at h
    cases h
  | none =>
    refine ⟨rfl, fun count hactive => ?_⟩
    rw [hcount, outruns, hactive, Option.any_some] at h
    cases hoverflows : t.overflows name count with
    | false => rfl
    | true =>
      rw [hoverflows] at h
      cases h

theorem suppress_of_panic {c : Cycle} (settings : CycleSettings) {name : String} {metric : Metric} {s : Store}
    {payload : Panic} (h : judgePanic? c.previous s name metric = some payload) :
    c.suppress settings name metric s = ⟨.error (.panic payload), s, []⟩ := by
  rcases of_judgePanic?_eq_some h with hcount | ⟨hcount, rfl, count, hactive, hoverflows⟩
  · rw [suppress, Action.bind_of_error (by rw [activity_of_panic hcount]), activity_of_panic hcount]
  · rw [suppress, Action.bind_of_ok (by rw [activity_of_calm hcount]), activity_of_calm hcount, hactive]
    simp [Action.bind_apply, Action.within, IdleTable.consult_of_overflows hoverflows, Except.map]

theorem suppress_of_calm {c : Cycle} {settings : CycleSettings} {name : String} {metric : Metric} {s : Store}
    (h : judgePanic? c.previous s name metric = none) :
    c.suppress settings name metric s =
      ⟨.ok ((judge settings c.previous s name metric).1,
        { c with
          previous := (judge settings c.previous s name metric).2
          skipped := if (judge settings c.previous s name metric).1 then c.skipped + 1 else c.skipped }),
        s, warnings c.previous s name metric⟩ := by
  obtain ⟨hcount, hfits⟩ := of_judgePanic?_eq_none h
  rw [suppress, Action.bind_of_ok (by rw [activity_of_calm hcount]), activity_of_calm hcount]
  cases hactive : activity? s metric with
  | none => simp [judge, warnings, hactive, Action.pure_apply]
  | some count =>
    simp [judge, warnings, hactive, Action.bind_apply, Action.within, IdleTable.consult_of_fits (hfits count hactive),
      Action.pure_apply, Except.map]

variable {settings : CycleSettings} {now : Instant} {c : Cycle} {name : String} {metric : Metric} {s : Store}

theorem visit_of_rejected (h : settings.filter s name metric = .ok false) :
    visit settings now c (name, metric) s = ⟨.ok { c with filtered := c.filtered + 1 }, s, []⟩ := by
  simp [visit, Action.bind_apply, Action.get, h, Action.pure_apply]

theorem visit_of_idle (h : settings.filter s name metric = .ok true)
    (hjudged : judgePanic? c.previous s name metric = none)
    (hidle : (judge settings c.previous s name metric).1 = true) :
    visit settings now c (name, metric) s =
      ⟨.ok { c with
          previous := (judge settings c.previous s name metric).2
          skipped := c.skipped + 1 }, s, warnings c.previous s name metric⟩ := by
  simp [visit, Action.bind_apply, Action.get, h, suppress_of_calm hjudged, hidle, Action.pure_apply]

theorem visit_of_reported {fields : Fields} (h : settings.filter s name metric = .ok true)
    (hjudged : judgePanic? c.previous s name metric = none)
    (hnew : (judge settings c.previous s name metric).1 = false)
    (hfields : (settings.units.fields metric s).result = .ok fields) :
    visit settings now c (name, metric) s =
      ⟨.ok { c with
          points := c.points ++ [.observed now name fields]
          previous := (judge settings c.previous s name metric).2 },
        (settings.units.fields metric s).state,
        warnings c.previous s name metric ++ (settings.units.fields metric s).events⟩ := by
  cases hstep : settings.units.fields metric s with
  | mk result state events =>
    rw [hstep] at hfields
    subst hfields
    simp [visit, Action.bind_apply, Action.get, h, suppress_of_calm hjudged, hnew, Action.map_apply, push, hstep,
      Step.map, Except.map]

theorem judge_of_plain (settings : CycleSettings) (t : IdleTable) (s : Store) (name : String) {x : Metric}
    (hx : x.kind.isMetered = false) : judge settings t s name x = (false, t) := by
  rw [judge, activity?, hx]
  rfl

theorem judgePanic?_of_plain (t : IdleTable) (s : Store) (name : String) {x : Metric}
    (hx : x.kind.isMetered = false) : judgePanic? t s name x = none := by
  have hcount : x.countPanic? s = none := by
    obtain ⟨kind, handle⟩ := x
    cases kind <;> first | rfl | cases hx
  rw [judgePanic?, hcount, outruns, activity?, hx]
  rfl

theorem judgePanic?_eq_none_iff (t : IdleTable) (s : Store) (name : String) (x : Metric) :
    judgePanic? t s name x = none ↔ (x.isPoisoned s = true → x.kind = .timer) ∧ outruns t s name x = false := by
  rw [← x.countPanic?_eq_none_iff s, judgePanic?]
  cases x.countPanic? s <;> cases outruns t s name x <;> simp

theorem activity?_of_sameCounts {s s' : Store} (h : s.SameCounts s') (x : Metric) : activity? s' x = activity? s x := by
  rw [activity?, activity?, h.count]

theorem outruns_congr {t t' : IdleTable} {s s' : Store} {name : String} (htable : t'.get? name = t.get? name)
    (h : s.SameCounts s') (x : Metric) : outruns t' s' name x = outruns t s name x := by
  rw [outruns, outruns, activity?_of_sameCounts h]
  congr 1
  funext count
  rw [IdleTable.overflows, IdleTable.overflows, htable]

theorem judgePanic?_congr {t t' : IdleTable} {s s' : Store} {name : String} (htable : t'.get? name = t.get? name)
    (h : s.SameCounts s') (x : Metric) : judgePanic? t' s' name x = judgePanic? t s name x := by
  rw [judgePanic?, judgePanic?, outruns_congr htable h, x.countPanic?_of_sameCounts h]

theorem panic?_eq_none_iff_of_admitted {t : IdleTable} (h : settings.filter s name metric = .ok true) :
    panic? settings t s name metric = none ↔
      judgePanic? t s name metric = none ∧ ((judge settings t s name metric).1 = false → metric.panic? s = none) := by
  rw [panic?, h]
  cases judgePanic? t s name metric <;> cases (judge settings t s name metric).1 <;> simp

theorem judge_of_count (settings : CycleSettings) (t : IdleTable) (s : Store) (name : String) {x : Metric}
    {count : Int64} (hx : x.kind.isMetered = true) (hcount : x.count? s = some count) :
    judge settings t s name x = t.skip name count settings.skipIdle := by
  rw [judge, activity?, hx, if_pos rfl, hcount]

theorem result_visit_of_panic {payload : Panic} (h : panic? settings c.previous s name metric = some payload) :
    (visit settings now c (name, metric) s).result = .error (.panic payload) := by
  rw [panic?] at h
  cases hfilter : settings.filter s name metric with
  | error other =>
    rw [hfilter] at h
    cases h
    simp [visit, Action.bind_apply, Action.get, hfilter, Action.panic, Action.stop]
  | ok admitted =>
    rw [hfilter] at h
    cases admitted with
    | false => cases h
    | true =>
      cases hjudged : judgePanic? c.previous s name metric with
      | some other =>
        rw [hjudged] at h
        cases h
        simp [visit, Action.bind_apply, Action.get, hfilter, suppress_of_panic settings hjudged]
      | none =>
        rw [hjudged] at h
        cases hnew : (judge settings c.previous s name metric).1 with
        | true =>
          rw [hnew] at h
          cases h
        | false =>
          rw [hnew] at h
          have hfields := Units.result_fields settings.units metric s
          rw [show metric.panic? s = some payload from h] at hfields
          cases hstep : settings.units.fields metric s with
          | mk result state events =>
            rw [hstep] at hfields
            subst hfields
            simp [visit, Action.bind_apply, Action.get, hfilter, suppress_of_calm hjudged, hnew, Action.map_apply, hstep,
              Step.map, Except.map]

theorem panic?_of_ok {c' : Cycle} (h : (visit settings now c (name, metric) s).result = .ok c') :
    panic? settings c.previous s name metric = none := by
  cases hpanic : panic? settings c.previous s name metric with
  | none => rfl
  | some payload => cases h.symm.trans (result_visit_of_panic hpanic)

theorem visit_cases (settings : CycleSettings) (now : Instant) (c : Cycle) (name : String) (metric : Metric)
    (s : Store) (h : panic? settings c.previous s name metric = none) :
    (settings.filter s name metric = .ok false ∧
      visit settings now c (name, metric) s = ⟨.ok { c with filtered := c.filtered + 1 }, s, []⟩) ∨
    (settings.filter s name metric = .ok true ∧ (judge settings c.previous s name metric).1 = true ∧
      visit settings now c (name, metric) s =
        ⟨.ok { c with
            previous := (judge settings c.previous s name metric).2
            skipped := c.skipped + 1 }, s, warnings c.previous s name metric⟩) ∨
    (settings.filter s name metric = .ok true ∧ (judge settings c.previous s name metric).1 = false ∧
      ∃ fields, (settings.units.fields metric s).result = .ok fields ∧
        visit settings now c (name, metric) s =
          ⟨.ok { c with
              points := c.points ++ [.observed now name fields]
              previous := (judge settings c.previous s name metric).2 },
            (settings.units.fields metric s).state,
            warnings c.previous s name metric ++ (settings.units.fields metric s).events⟩) := by
  rw [panic?] at h
  cases hfilter : settings.filter s name metric with
  | error payload =>
    rw [hfilter] at h
    cases h
  | ok admitted =>
    rw [hfilter] at h
    cases admitted with
    | false => exact .inl ⟨rfl, visit_of_rejected hfilter⟩
    | true =>
      cases hjudged : judgePanic? c.previous s name metric with
      | some payload =>
        rw [hjudged] at h
        cases h
      | none =>
        rw [hjudged] at h
        cases hnew : (judge settings c.previous s name metric).1 with
        | true => exact .inr (.inl ⟨rfl, rfl, visit_of_idle hfilter hjudged hnew⟩)
        | false =>
          rw [hnew] at h
          have hfields := Units.result_fields settings.units metric s
          rw [show metric.panic? s = none from h] at hfields
          obtain ⟨fields, hfields⟩ := hfields
          exact .inr (.inr ⟨rfl, rfl, fields, hfields, visit_of_reported hfilter hjudged hnew hfields⟩)

theorem exists_panic_of_visit_error {fault : Fault}
    (h : (visit settings now c (name, metric) s).result = .error fault) :
    ∃ payload, panic? settings c.previous s name metric = some payload ∧ fault = .panic payload := by
  cases hpanic : panic? settings c.previous s name metric with
  | none =>
    rcases visit_cases settings now c name metric s hpanic with
      ⟨-, hvisit⟩ | ⟨-, -, hvisit⟩ | ⟨-, -, fields, -, hvisit⟩ <;> rw [hvisit] at h <;> cases h
  | some payload =>
    rw [result_visit_of_panic hpanic] at h
    exact ⟨payload, rfl, (Except.error.inj h).symm⟩

theorem keeps_visit_of_fields {R : Store → Store → Prop} [IsPreorder Store R] (settings : CycleSettings)
    (hfields : ∀ metric, Action.Keeps R (settings.units.fields metric)) (now : Instant) (c : Cycle)
    (entry : String × Metric) : Action.Keeps R (visit settings now c entry) := by
  obtain ⟨name, metric⟩ := entry
  have hsuppress : Action.Keeps R (c.suppress settings name metric) := by
    intro s
    cases hjudged : judgePanic? c.previous s name metric with
    | some payload =>
      rw [suppress_of_panic settings hjudged]
      exact Std.Refl.refl s
    | none =>
      rw [suppress_of_calm hjudged]
      exact Std.Refl.refl s
  refine .bind .get fun s => ?_
  split
  · exact .stop _
  · exact .pure _
  · refine .bind hsuppress fun judged => ?_
    split
    split
    · exact .pure _
    · exact .bind (hfields metric) fun _ => .pure _

theorem keeps_visit (settings : CycleSettings) (now : Instant) (c : Cycle) (entry : String × Metric) :
    Action.Keeps Store.SameCounts (visit settings now c entry) :=
  keeps_visit_of_fields settings settings.units.keepsCounts_fields now c entry

end Cycle

end MetricReporting
