import MetricReporting.Proofs.Consultations
import MetricReporting.Proofs.Conversions
import MetricReporting.Proofs.Repetition

namespace MetricReporting

structure Point.AgreesWith (p q : Point) : Prop where
  measurement : p.measurement = q.measurement
  tags : p.tags = q.tags
  timestamp : p.timestamp = q.timestamp
  fields : p.fields = q.fields ∨ p.fields.names = ["value"] ∧ q.fields.names = ["value"]

namespace Gauge

theorem answer_asked_of_ne {s : Store} {h h' : Handle .gauge} (hne : (s.get h').probe ≠ (s.get h).probe) :
    answer (asked s h) h' = answer s h' := by
  have hget : (asked s h).get h' = s.get h' := (Store.SameReadings.setProbe s _ _).gauge_get h'
  rw [answer, answer, hget, asked, Store.probe_setProbe, if_neg fun hsame => hne hsame.1]

theorem answer_of_steady {s t u : Store} {h : Handle .gauge} (hsteady : IsSteady s h) (ht : s.SameReadings t)
    (ht' : s.SameAnswers t) (hu : s.SameReadings u) (hu' : s.SameAnswers u) : answer t h = answer u h := by
  obtain ⟨v, hv⟩ := hsteady
  rw [answer, answer, ht.gauge_get, hu.gauge_get, ht'.answers, hu'.answers, hv, hv]

end Gauge

namespace Metric

variable {x : Metric} {s s' : Store}

theorem quantities_of_sameReadings (h : s.SameReadings s')
    (hanswer : ∀ handle, x = ⟨.gauge, handle⟩ → Gauge.answer s handle = Gauge.answer s' handle) :
    x.quantities s = x.quantities s' := by
  obtain ⟨kind, handle⟩ := x
  cases kind with
  | gauge => simp only [quantities, hanswer handle rfl]
  | counter => simp only [quantities, h.counter_get]
  | histogram => simp only [quantities, h.histogram_get]
  | meter =>
    have hcount : Meter.count (s'.get handle) = Meter.count (s.get handle) :=
      Option.some.inj (h.count? ⟨.meter, handle⟩)
    have hrates : Meter.rates (s'.get handle) s.now = Meter.rates (s.get handle) s.now :=
      Meter.rates_of_tickUpTo_eq (h.tickUpTo_get (.meter handle))
    simp only [quantities, h.now, hcount, hrates]
  | timer =>
    have hrates : (Timer.meter (s'.get handle)).rates s.now = (Timer.meter (s.get handle)).rates s.now :=
      Meter.rates_of_tickUpTo_eq (h.tickUpTo_get (.timer handle))
    simp only [quantities, Timer.count, h.now, h.timer_get, hrates]

theorem fieldsIn_of_sameReadings (units : Units) (h : s.SameReadings s')
    (hanswer : ∀ handle, x = ⟨.gauge, handle⟩ → Gauge.answer s handle = Gauge.answer s' handle) :
    x.fieldsIn units s = x.fieldsIn units s' := by
  rw [fieldsIn, fieldsIn, quantities_of_sameReadings h hanswer]

theorem names_fieldsIn_gauge (units : Units) {h : Handle .gauge} (calm : panic? s ⟨.gauge, h⟩ = none) :
    (fieldsIn units s ⟨.gauge, h⟩).names = ["value"] := by
  rw [names_fieldsIn]
  cases hanswer : Gauge.answer s h with
  | value v =>
    simp only [quantities, hanswer]
    rfl
  | panic payload => simp [panic?, hanswer] at calm

theorem agreesWith_fieldsIn (units : Units) (now : Instant) (name : String) (h : s.SameReadings s')
    (calm : x.panic? s = none) (calm' : x.panic? s' = none) :
    (Point.observed now name (x.fieldsIn units s)).AgreesWith (.observed now name (x.fieldsIn units s')) := by
  refine ⟨rfl, rfl, rfl, ?_⟩
  by_cases hgauge : x.kind = .gauge
  · obtain ⟨kind, handle⟩ := x
    cases hgauge
    exact .inr ⟨names_fieldsIn_gauge units calm, names_fieldsIn_gauge units calm'⟩
  · exact .inl (fieldsIn_of_sameReadings units h fun handle hx => absurd (congrArg Metric.kind hx) hgauge)

theorem panic?_congr (h : s.SameReadings s')
    (hanswer : ∀ handle, x = ⟨.gauge, handle⟩ → Gauge.answer s handle = Gauge.answer s' handle) :
    x.panic? s = x.panic? s' := by
  have hpoisoned := h.isPoisoned x
  obtain ⟨kind, handle⟩ := x
  cases kind with
  | gauge => simp only [panic?, hanswer handle rfl]
  | counter => rfl
  | histogram => rfl
  | meter => simp only [panic?, hpoisoned]
  | timer => simp only [panic?, hpoisoned]

theorem answer_fields (units : Units) {h' : Handle .gauge} (calm : x.panic? s = none)
    (hapart : ∀ h, x = ⟨.gauge, h⟩ → (s.get h').probe ≠ (s.get h).probe) :
    Gauge.answer (units.fields x s).state h' = Gauge.answer s h' := by
  cases hx : x.kind.isMetered with
  | true => exact Gauge.answer_of_alike ⟨(units.isReading_fields x).keeps s, units.probes_fields hx s⟩ h'
  | false =>
    rw [(units.fields_ends calm).2]
    obtain ⟨kind, handle⟩ := x
    cases kind with
    | gauge => exact Gauge.answer_asked_of_ne (hapart handle rfl)
    | counter => rfl
    | histogram => rfl
    | meter => cases hx
    | timer => cases hx

end Metric

theorem sublistForall₂_append_right {α β : Type} {R : α → β → Prop} {l : List α} {l' : List β}
    (h : List.SublistForall₂ R l l') (more : List β) : List.SublistForall₂ R l (l' ++ more) := by
  obtain ⟨kept, hkept, hsublist⟩ := List.sublistForall₂_iff.mp h
  exact List.sublistForall₂_iff.mpr ⟨kept, hkept, hsublist.trans (List.sublist_append_left l' more)⟩

theorem sublistForall₂_concat {α β : Type} {R : α → β → Prop} {l : List α} {l' : List β} {a : α} {b : β}
    (h : List.SublistForall₂ R l l') (hab : R a b) : List.SublistForall₂ R (l ++ [a]) (l' ++ [b]) := by
  obtain ⟨kept, hkept, hsublist⟩ := List.sublistForall₂_iff.mp h
  exact List.sublistForall₂_iff.mpr
    ⟨kept ++ [b], List.rel_append hkept (.cons hab .nil), hsublist.append (List.Sublist.refl [b])⟩

namespace Cycle

theorem judge_of_get?_eq (settings : CycleSettings) {t u : IdleTable} {s s' : Store} {name : String}
    (h : t.get? name = u.get? name) (hreadings : s.SameReadings s') (x : Metric) :
    (judge settings t s name x).1 = (judge settings u s' name x).1 ∧
      (judge settings t s name x).2.get? name = (judge settings u s' name x).2.get? name := by
  rw [judge_of_sameReadings settings u hreadings]
  cases hx : x.kind.isMetered with
  | false =>
    rw [judge_of_plain settings t s name hx, judge_of_plain settings u s name hx]
    exact ⟨rfl, h⟩
  | true =>
    obtain ⟨count, hcount⟩ := Metric.exists_count hx s
    rw [judge_of_count settings t s name hx hcount, judge_of_count settings u s name hx hcount]
    exact IdleTable.skip_of_get?_eq h count settings.skipIdle

theorem calm_of_admitted {settings : CycleSettings} {now : Instant} {c c' : Cycle} {name : String} {x : Metric} {s : Store}
    (hok : (visit settings now c (name, x) s).result = .ok c') (hadmits : settings.filter s name x = .ok true) :
    judgePanic? c.previous s name x = none ∧
      ((judge settings c.previous s name x).1 = false → x.panic? s = none) :=
  (panic?_eq_none_iff_of_admitted hadmits).mp (panic?_of_ok hok)

/-- Where two cycles stand, the first of which leaves out all but some names: it has the points of the other under those
names, and has looked at no other metric. -/
structure Trails (R : Point → Point → Prop) (admits : String → Bool) (few : Cycle) (s : Store) (many : Cycle)
    (s' : Store) : Prop where
  points : List.SublistForall₂ R few.points many.points
  readings : s.SameReadings s'
  get?_eq (name : String) : admits name = true → few.previous.get? name = many.previous.get? name

variable {R : Point → Point → Prop} {admits admits' : String → Bool} {units : Units} {suppress : Bool} {now : Instant}
  {few many many' : Cycle} {s s' : Store} {name : String} {x : Metric}

theorem Trails.alone (h : Trails R admits few s many s') (hrejects : admits name = false)
    (hmany : (visit ⟨units, suppress, .ofNames admits'⟩ now many (name, x) s').result = .ok many') (n : Nat) :
    Trails R admits { few with filtered := n } s many'
      (visit ⟨units, suppress, .ofNames admits'⟩ now many (name, x) s').state := by
  have hother (other : String) (hadmits : admits other = true) : name ≠ other := by
    intro heq
    rw [heq, hadmits] at hrejects
    cases hrejects
  have hread := (units.isReading_fields x).keeps s'
  have htable (other : String) (hadmits : admits other = true) :
      few.previous.get? other =
        (judge ⟨units, suppress, .ofNames admits'⟩ many.previous s' name x).2.get? other :=
    (h.get?_eq other hadmits).trans (get?_judge_of_ne _ many.previous s' x (hother other hadmits)).symm
  rcases visit_cases ⟨units, suppress, .ofNames admits'⟩ now many name x s' (panic?_of_ok hmany) with
    ⟨-, hvisit⟩ | ⟨-, -, hvisit⟩ | ⟨-, -, fields, -, hvisit⟩ <;> rw [hvisit] at hmany ⊢ <;> cases hmany
  · exact ⟨h.points, h.readings, h.get?_eq⟩
  · exact ⟨h.points, h.readings, htable⟩
  · exact ⟨sublistForall₂_append_right h.points _, h.readings.trans hread, htable⟩

theorem Trails.together (h : Trails R admits few s many s') (hadmits : admits name = true)
    (hadmits' : admits' name = true)
    (hmany : (visit ⟨units, suppress, .ofNames admits'⟩ now many (name, x) s').result = .ok many')
    (calm : (judge ⟨units, suppress, .ofNames admits⟩ few.previous s name x).1 = false → x.panic? s = none)
    (hpoint : x.panic? s = none → x.panic? s' = none →
      R (.observed now name (x.fieldsIn units s)) (.observed now name (x.fieldsIn units s'))) :
    ∃ few', (visit ⟨units, suppress, .ofNames admits⟩ now few (name, x) s).result = .ok few' ∧
      Trails R admits few' (visit ⟨units, suppress, .ofNames admits⟩ now few (name, x) s).state many'
        (visit ⟨units, suppress, .ofNames admits'⟩ now many (name, x) s').state := by
  have hfilter : CycleSettings.filter ⟨units, suppress, .ofNames admits⟩ s name x = .ok true := congrArg _ hadmits
  have hfilter' : CycleSettings.filter ⟨units, suppress, .ofNames admits'⟩ s' name x = .ok true := congrArg _ hadmits'
  obtain ⟨hanswer, hstored⟩ :=
    judge_of_get?_eq ⟨units, suppress, .ofNames admits'⟩ (h.get?_eq name hadmits) h.readings x
  obtain ⟨hjudged', hread'⟩ := calm_of_admitted hmany hfilter'
  have hjudged : judgePanic? few.previous s name x = none :=
    (judgePanic?_congr (h.get?_eq name hadmits).symm h.readings.sameCounts x).symm.trans hjudged'
  have htable (other : String) (hother : admits other = true) :
      (judge ⟨units, suppress, .ofNames admits⟩ few.previous s name x).2.get? other =
        (judge ⟨units, suppress, .ofNames admits'⟩ many.previous s' name x).2.get? other := by
    by_cases hname : name = other
    · subst hname
      exact hstored
    · rw [get?_judge_of_ne _ few.previous s x hname, get?_judge_of_ne _ many.previous s' x hname]
      exact h.get?_eq other hother
  rcases visit_cases ⟨units, suppress, .ofNames admits'⟩ now many name x s' (panic?_of_ok hmany) with
    ⟨hrejected, -⟩ | ⟨-, hidle, hvisit⟩ | ⟨-, hbusy, fields, hfields, hvisit⟩
  · cases hfilter'.symm.trans hrejected
  · rw [hvisit] at hmany ⊢
    cases hmany
    rw [visit_of_idle hfilter hjudged (hanswer.trans hidle)]
    exact ⟨_, rfl, h.points, h.readings, htable⟩
  · have calm := calm (hanswer.trans hbusy)
    have calm' := hread' hbusy
    have hread := (units.isReading_fields x).keeps
    rw [hvisit] at hmany ⊢
    cases hmany
    rw [visit_of_reported hfilter hjudged (hanswer.trans hbusy) (units.fields_ends calm).1]
    cases hfields.symm.trans (units.fields_ends calm').1
    exact ⟨_, rfl, sublistForall₂_concat h.points (hpoint calm calm'),
      ((hread s).symm.trans h.readings).trans (hread s'), htable⟩

theorem Trails.step (h : Trails R admits few s many s') (himp : ∀ name, admits name = true → admits' name = true)
    (hmany : (visit ⟨units, suppress, .ofNames admits'⟩ now many (name, x) s').result = .ok many')
    (calm : admits name = true → (judge ⟨units, suppress, .ofNames admits⟩ few.previous s name x).1 = false →
      x.panic? s = none)
    (hpoint : x.panic? s = none → x.panic? s' = none →
      R (.observed now name (x.fieldsIn units s)) (.observed now name (x.fieldsIn units s'))) :
    ∃ few', (visit ⟨units, suppress, .ofNames admits⟩ now few (name, x) s).result = .ok few' ∧
      Trails R admits few' (visit ⟨units, suppress, .ofNames admits⟩ now few (name, x) s).state many'
        (visit ⟨units, suppress, .ofNames admits'⟩ now many (name, x) s').state := by
  cases hadmits : admits name with
  | false =>
    have hfilter : CycleSettings.filter ⟨units, suppress, .ofNames admits⟩ s name x = .ok false := congrArg _ hadmits
    rw [visit_of_rejected hfilter]
    exact ⟨_, rfl, h.alone hadmits hmany _⟩
  | true => exact h.together hadmits (himp name hadmits) hmany (calm hadmits) hpoint

theorem Trails.visits (himp : ∀ name, admits name = true → admits' name = true) (entries : List (String × Metric))
    {few few' many many' : Cycle} {s s' : Store} (h : Trails Point.AgreesWith admits few s many s')
    (hfew : (entries.foldlM (visit ⟨units, suppress, .ofNames admits⟩ now) few s).result = .ok few')
    (hmany : (entries.foldlM (visit ⟨units, suppress, .ofNames admits'⟩ now) many s').result = .ok many') :
    List.SublistForall₂ Point.AgreesWith few'.points many'.points := by
  induction entries generalizing few many s s' with
  | nil =>
    cases hfew
    cases hmany
    exact h.points
  | cons e rest ih =>
    obtain ⟨name, x⟩ := e
    rw [List.foldlM_cons] at hfew hmany
    obtain ⟨few₁, hfew₁, hfew, -⟩ := Action.result_bind_eq_ok hfew
    obtain ⟨many₁, hmany₁, hmany, -⟩ := Action.result_bind_eq_ok hmany
    obtain ⟨few₂, hfew₂, hnext⟩ :=
      h.step himp hmany₁ (fun hadmits => (calm_of_admitted hfew₁ (congrArg Except.ok hadmits)).2)
        (x.agreesWith_fieldsIn units now name h.readings)
    cases hfew₁.symm.trans hfew₂
    exact ih hnext hfew hmany

end Cycle

def Metric.Spares (s : Store) (x y : Metric) : Prop :=
  ∀ h h', x = ⟨.gauge, h⟩ → y = ⟨.gauge, h'⟩ → (s.get h').probe = (s.get h).probe → Gauge.IsSteady s h'

def Snapshot.GaugesApart (snapshot : Snapshot) (s : Store) : Prop :=
  snapshot.entries.Pairwise fun a b => a.2.Spares s b.2

namespace Cycle

structure Attuned (start : Store) (rest : List (String × Metric)) (s s' : Store) : Prop where
  spared : rest.Pairwise fun a b => a.2.Spares start b.2
  readings : start.SameReadings s ∧ start.SameReadings s'
  sameAnswers : start.SameAnswers s ∧ start.SameAnswers s'
  answer_eq : ∀ e ∈ rest, ∀ h, e.2 = ⟨.gauge, h⟩ → Gauge.answer s h = Gauge.answer s' h

theorem answer_visit {settings : CycleSettings} {now : Instant} {c c' : Cycle} {name : String} {x : Metric} {s : Store}
    (hok : (visit settings now c (name, x) s).result = .ok c') {h' : Handle .gauge}
    (hapart : ∀ h, x = ⟨.gauge, h⟩ → (s.get h').probe ≠ (s.get h).probe) :
    Gauge.answer (visit settings now c (name, x) s).state h' = Gauge.answer s h' := by
  rcases visit_cases settings now c name x s (panic?_of_ok hok) with
    ⟨-, hvisit⟩ | ⟨-, -, hvisit⟩ | ⟨hadmits, hbusy, fields, -, hvisit⟩ <;> rw [hvisit]
  exact Metric.answer_fields settings.units ((calm_of_admitted hok hadmits).2 hbusy) hapart

theorem Attuned.step {start : Store} {name : String} {x : Metric} {rest : List (String × Metric)} {s s' : Store}
    (h : Attuned start ((name, x) :: rest) s s') {settings settings' : CycleSettings} {now : Instant}
    {few few' many many' : Cycle} (hfew : (visit settings now few (name, x) s).result = .ok few')
    (hmany : (visit settings' now many (name, x) s').result = .ok many') :
    Attuned start rest (visit settings now few (name, x) s).state (visit settings' now many (name, x) s').state := by
  obtain ⟨hspared, hrest⟩ := List.pairwise_cons.mp h.spared
  have hreads (settings : CycleSettings) (c : Cycle) : Action.Keeps Store.SameReadings (visit settings now c (name, x)) :=
    keeps_visit_of_fields settings (fun y => (settings.units.isReading_fields y).keeps) now c (name, x)
  have hasks (settings : CycleSettings) (c : Cycle) : Action.Keeps Store.SameAnswers (visit settings now c (name, x)) :=
    keeps_visit_of_fields settings settings.units.keepsAnswers_fields now c (name, x)
  have hread := h.readings.1.trans (hreads settings few s)
  have hread' := h.readings.2.trans (hreads settings' many s')
  have hasked := IsTrans.trans _ _ _ h.sameAnswers.1 (hasks settings few s)
  have hasked' := IsTrans.trans _ _ _ h.sameAnswers.2 (hasks settings' many s')
  refine ⟨hrest, ⟨hread, hread'⟩, ⟨hasked, hasked'⟩, ?_⟩
  intro e he handle hgauge
  by_cases hsteady : Gauge.IsSteady start handle
  · exact Gauge.answer_of_steady hsteady hread hasked hread' hasked'
  · -- The gauge asks a probe of its own, which the visit has left alone.
    have hapart (asked : Handle .gauge) (hx : x = ⟨.gauge, asked⟩) :
        (start.get handle).probe ≠ (start.get asked).probe :=
      fun hsame => hsteady (hspared e he asked handle hx hgauge hsame)
    rw [answer_visit hfew, answer_visit hmany]
    · exact h.answer_eq e (List.mem_cons_of_mem _ he) handle hgauge
    · intro asked hx
      rw [h.readings.2.gauge_get, h.readings.2.gauge_get]
      exact hapart asked hx
    · intro asked hx
      rw [h.readings.1.gauge_get, h.readings.1.gauge_get]
      exact hapart asked hx

theorem Trails.visits_attuned {units : Units} {suppress : Bool} {now : Instant} {admits admits' : String → Bool}
    (himp : ∀ name, admits name = true → admits' name = true) {start : Store} (entries : List (String × Metric))
    {few many many' : Cycle} {s s' : Store} (h : Trails Eq admits few s many s') (hattuned : Attuned start entries s s')
    (hmany : (entries.foldlM (visit ⟨units, suppress, .ofNames admits'⟩ now) many s').result = .ok many') :
    ∃ few', (entries.foldlM (visit ⟨units, suppress, .ofNames admits⟩ now) few s).result = .ok few' ∧
      List.SublistForall₂ Eq few'.points many'.points := by
  -- The gauges still to come answer alike in both stores, so the first cycle does not panic where the second goes on.
  induction entries generalizing few many s s' with
  | nil =>
    cases hmany
    exact ⟨few, rfl, h.points⟩
  | cons e rest ih =>
    obtain ⟨name, x⟩ := e
    rw [List.foldlM_cons] at hmany
    obtain ⟨many₁, hmany₁, hmany, -⟩ := Action.result_bind_eq_ok hmany
    have hanswer := hattuned.answer_eq (name, x) List.mem_cons_self
    have calm (hadmits : admits name = true)
        (hbusy : (judge ⟨units, suppress, .ofNames admits⟩ few.previous s name x).1 = false) : x.panic? s = none := by
      obtain ⟨hsame, -⟩ :=
        judge_of_get?_eq ⟨units, suppress, .ofNames admits'⟩ (h.get?_eq name hadmits) h.readings x
      rw [Metric.panic?_congr h.readings hanswer]
      exact (calm_of_admitted hmany₁ (congrArg Except.ok (himp name hadmits))).2 (hsame.symm.trans hbusy)
    have hfields := Metric.fieldsIn_of_sameReadings units h.readings hanswer
    obtain ⟨few₁, hfew₁, hnext⟩ :=
      h.step himp hmany₁ calm fun _ _ => congrArg (Point.observed now name) hfields
    obtain ⟨few', hfew', hpoints⟩ := ih hnext (hattuned.step hfew₁ hmany₁) hmany
    refine ⟨few', ?_, hpoints⟩
    rw [List.foldlM_cons, Action.bind_of_ok hfew₁]
    exact hfew'

/-- From whatever snapshot, table and store, a cycle in the one settings has no point that one in the other settings
does not have. Where gauges do not disturb each other, a cycle in the one comes to its end if one in the other does. -/
structure ReportsNoMore (fewer more : CycleSettings) : Prop where
  agrees {snapshot : Snapshot} {t : IdleTable} {now : Instant} {s : Store} {few many : Cycle} :
    (build snapshot fewer t now s).result = .ok few → (build snapshot more t now s).result = .ok many →
    List.SublistForall₂ Point.AgreesWith few.points many.points
  sublist {snapshot : Snapshot} {t : IdleTable} {now : Instant} {s : Store} {many : Cycle} :
    snapshot.GaugesApart s → (build snapshot more t now s).result = .ok many →
    ∃ few, (build snapshot fewer t now s).result = .ok few ∧ few.points.Sublist many.points

theorem reportsNoMore_of_names (units : Units) (suppress : Bool) {admits admits' : String → Bool}
    (himp : ∀ name, admits name = true → admits' name = true) :
    ReportsNoMore ⟨units, suppress, .ofNames admits⟩ ⟨units, suppress, .ofNames admits'⟩ where
  agrees {snapshot t now s few many} hfew hmany := by
    have hstart : Trails Point.AgreesWith admits { previous := t } s { previous := t } s :=
      ⟨.nil, .refl s, fun _ _ => rfl⟩
    exact hstart.visits himp snapshot.entries hfew hmany
  sublist {snapshot t now s many} hapart hmany := by
    have hstart : Trails Eq admits { previous := t } s { previous := t } s := ⟨.nil, .refl s, fun _ _ => rfl⟩
    have hattuned : Attuned s snapshot.entries s s :=
      ⟨hapart, ⟨.refl s, .refl s⟩, ⟨.refl s, .refl s⟩, fun _ _ _ _ => rfl⟩
    obtain ⟨few, hfew, hpoints⟩ := hstart.visits_attuned himp snapshot.entries hattuned hmany
    refine ⟨few, hfew, ?_⟩
    obtain ⟨kept, hkept, hsublist⟩ := List.sublistForall₂_iff.mp hpoints
    rw [List.forall₂_eq_eq_eq] at hkept
    rw [hkept]
    exact hsublist

end Cycle

end MetricReporting
