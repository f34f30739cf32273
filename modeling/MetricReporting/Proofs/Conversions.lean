import Mathlib.Data.List.Forall2
import MetricReporting.Proofs.OneName
import MetricReporting.Proofs.Readings

namespace MetricReporting

namespace NameMap

variable {α β : Type}

theorem place_map (f : α → β) (name : String) (value : α) (l : List (String × α)) :
    place name (f value) (l.map fun e => (e.1, f e.2)) = (place name value l).map fun e => (e.1, f e.2) := by
  induction l with
  | nil => rfl
  | cons e rest ih =>
    simp only [List.map_cons, place]
    by_cases hlt : name < e.1
    · simp [hlt]
    · by_cases heq : name = e.1
      · simp [heq]
      · simp [hlt, heq, ih]

theorem map_insert (f : α → β) (m : NameMap α) (name : String) (value : α) :
    (m.map f).insert name (f value) = (m.insert name value).map f := by
  simp only [insert, map, place_map]

theorem ofList_map (f : α → β) (l : List (String × α)) :
    ofList (l.map fun e => (e.1, f e.2)) = (ofList l).map f := by
  suffices hfrom : ∀ m : NameMap α, (l.map fun e => (e.1, f e.2)).foldl (fun m e => m.insert e.1 e.2) (m.map f) =
      (l.foldl (fun m e => m.insert e.1 e.2) m).map f from hfrom empty
  induction l with
  | nil => exact fun _ => rfl
  | cons e rest ih =>
    intro m
    rw [List.map_cons, List.foldl_cons, map_insert, ih, List.foldl_cons]

theorem names_map (f : α → β) (m : NameMap α) : (m.map f).names = m.names := by
  simp [names, map]

theorem get?_map (f : α → β) (m : NameMap α) (name : String) : (m.map f).get? name = (m.get? name).map f := by
  simp only [get?, map]
  induction m.entries with
  | nil => rfl
  | cons e rest ih =>
    simp only [List.map_cons, lookup, ih]
    split <;> rfl

theorem get?_map_congr {f g : α → β} {m : NameMap α} {name : String}
    (h : ∀ value, m.get? name = some value → f value = g value) : (m.map f).get? name = (m.map g).get? name := by
  rw [get?_map, get?_map]
  cases hget : m.get? name with
  | none => rfl
  | some value => exact congrArg some (h value hget)

end NameMap

inductive Quantity
  | plain (v : FieldValue)
  | duration (x : Float)
  | rate (x : Float)

def Quantity.shown (units : Units) : Quantity → FieldValue
  | plain v => v
  | duration x => .float (units.duration.inUnits x)
  | rate x => .float (units.rate.perUnit x)

def Meter.rates (m : Meter Float) (now : Nat) : List (String × Float) :=
  [("m1_rate", (m.readRate now .m1).1), ("m5_rate", (m.readRate now .m5).1), ("m15_rate", (m.readRate now .m15).1),
    ("mean_rate", m.meanRate now)]

def Histogram.durations (h : Histogram) : List (String × Float) :=
  let s := h.sample
  [("min", Scalar.ofInt s.min.toInt), ("max", Scalar.ofInt s.max.toInt), ("mean", s.mean),
    ("stddev", s.standardDeviation)] ++ Sample.percentiles.map fun p => (p.1, s.quantile p.2)

namespace Units

def rateNames : List String := ["m1_rate", "m5_rate", "m15_rate", "mean_rate"]

def durationNames : List String := ["min", "max", "mean", "stddev", "p50", "p75", "p95", "p98", "p99", "p999"]

end Units

theorem Meter.rates_of_tickUpTo_eq {m m' : Meter Float} {now : Nat} (h : m'.tickUpTo now = m.tickUpTo now) :
    m'.rates now = m.rates now := by
  simp only [rates, readRate_of_tickUpTo_eq h, meanRate_of_tickUpTo_eq h]

def Metric.quantities (s : Store) : Metric → List (String × Quantity)
  | ⟨.gauge, h⟩ =>
    match Gauge.answer s h with
    | .value v => [("value", .plain v)]
    | .panic _ => []
  | ⟨.counter, h⟩ => let c : Counter := s.get h; [("count", .plain (.integer c.count))]
  | ⟨.histogram, h⟩ => let o : Histogram := s.get h; (Units.valueFields o).map fun v => (v.1, .plain v.2)
  | ⟨.meter, h⟩ =>
    let m : Meter Float := s.get h
    ("count", .plain (.integer m.count)) :: (m.rates s.now).map fun r => (r.1, .rate r.2)
  | ⟨.timer, h⟩ =>
    let t : Timer Float := s.get h
    ("count", .plain (.integer t.count)) ::
      (t.histogram.durations.map fun d => (d.1, .duration d.2)) ++ (t.meter.rates s.now).map fun r => (r.1, .rate r.2)

def Metric.fieldsIn (units : Units) (s : Store) (x : Metric) : Fields :=
  (NameMap.ofList (x.quantities s)).map (Quantity.shown units)

def Metered.caughtUp (metered : Metered) (s : Store) : Store :=
  (metered.readRate .m15 (metered.readRate .m5 (metered.readRate .m1 s).state).state).state

def Metric.looked (s : Store) : Metric → Store
  | ⟨.gauge, h⟩ => Gauge.asked s h
  | ⟨.counter, _⟩ | ⟨.histogram, _⟩ => s
  | ⟨.meter, h⟩ => Metered.caughtUp (.meter h) s
  | ⟨.timer, h⟩ => Metered.caughtUp (.timer h) s

namespace Units

theorem rateFields_ends (units : Units) {metered : Metered} {s : Store} (sound : (metered.get s).poisoned = false) :
    (units.rateFields metered s).Ends
      (.ok (((metered.get s).rates s.now).map fun r => (r.1, .float (units.rate.perUnit r.2))))
      (metered.caughtUp s) := by
  -- Each average is read after the meter has caught up for the one before, which changes none of them.
  have hrate {s' : Store} (h : s.SameReadings s') (horizon : Horizon) :
      (metered.readRate horizon s').Ends (.ok ((metered.get s).readRate s.now horizon).1)
        (metered.readRate horizon s').state := by
    refine .self _ ?_
    rw [Metered.readRate_of_sound ((h.poisoned_get metered).trans sound), h.now,
      Meter.readRate_of_tickUpTo_eq (h.tickUpTo_get metered)]
  have hmean {s' : Store} (h : s.SameReadings s') :
      (metered.meanRate s').Ends (.ok ((metered.get s).meanRate s.now)) s' := by
    rw [Metered.meanRate_of_sound ((h.poisoned_get metered).trans sound), h.now,
      Meter.meanRate_of_tickUpTo_eq (h.tickUpTo_get metered)]
    exact ⟨rfl, rfl⟩
  have hm1 := (metered.isReading_readRate .m1).keeps s
  have hm5 := hm1.trans ((metered.isReading_readRate .m5).keeps _)
  have hm15 := hm5.trans ((metered.isReading_readRate .m15).keeps _)
  exact .bind_ok (hrate (.refl s) .m1) (.bind_ok (hrate hm1 .m5) (.bind_ok (hrate hm5 .m15)
    (.bind_ok (hmean hm15) ⟨rfl, rfl⟩)))

theorem fields_ends (units : Units) {x : Metric} {s : Store} (calm : x.panic? s = none) :
    (units.fields x s).Ends (.ok (x.fieldsIn units s)) (x.looked s) := by
  rw [Metric.fieldsIn, ← NameMap.ofList_map]
  obtain ⟨kind, h⟩ := x
  cases kind with
  | gauge =>
    cases hanswer : Gauge.answer s h with
    | value v =>
      simp only [Metric.quantities, hanswer]
      have hread : (Gauge.read h s).Ends (.ok v) (Gauge.asked s h) := by
        rw [Gauge.read_of_value hanswer]
        exact ⟨rfl, rfl⟩
      exact .bind_ok hread ⟨rfl, rfl⟩
    | panic payload => simp [Metric.panic?, hanswer] at calm
  | counter => exact ⟨rfl, rfl⟩
  | histogram => exact ⟨rfl, rfl⟩
  | meter =>
    have sound : (Metered.get s (.meter h)).poisoned = false := ((Metric.panic?_eq_none_iff _ s).mp calm).2
    have hheld : (Metered.hold (.meter h) s).Ends (.ok (Metered.get s (.meter h))) s := by
      rw [Metered.hold_of_sound sound]
      exact ⟨rfl, rfl⟩
    exact .bind_ok hheld (.bind_ok (units.rateFields_ends sound) ⟨rfl, rfl⟩)
  | timer =>
    have sound : (Metered.get s (.timer h)).poisoned = false := ((Metric.panic?_eq_none_iff _ s).mp calm).2
    exact .bind_ok ⟨rfl, rfl⟩ (.bind_ok (units.rateFields_ends sound) ⟨rfl, rfl⟩)

end Units

namespace Metric

theorem nodup_quantities (x : Metric) (s : Store) : ((x.quantities s).map Prod.fst).Nodup := by
  obtain ⟨kind, h⟩ := x
  cases kind with
  | gauge => cases hanswer : Gauge.answer s h <;> simp [quantities, hanswer]
  | counter => simp [quantities]
  | histogram =>
    change ["count", "min", "max", "mean", "stddev", "p50", "p75", "p95", "p98", "p99", "p999"].Nodup
    decide
  | meter =>
    change ("count" :: Units.rateNames).Nodup
    decide
  | timer =>
    change ("count" :: Units.durationNames ++ Units.rateNames).Nodup
    decide

variable {x : Metric} {s : Store} {name : String}

theorem of_rate_mem {r : Float} (h : (name, .rate r) ∈ x.quantities s) :
    x.kind.isMetered = true ∧ name ∈ Units.rateNames := by
  obtain ⟨kind, handle⟩ := x
  cases kind with
  | gauge => cases hanswer : Gauge.answer s handle <;> simp [quantities, hanswer] at h
  | counter => simp [quantities] at h
  | histogram => simp [quantities] at h
  | meter =>
    simp only [quantities, List.mem_cons, List.mem_map, Prod.mk.injEq, reduceCtorEq, and_false, false_or] at h
    obtain ⟨e, he, rfl, -⟩ := h
    exact ⟨rfl, List.mem_map_of_mem he⟩
  | timer =>
    simp only [quantities, List.cons_append, List.mem_cons, List.mem_append, List.mem_map, Prod.mk.injEq, reduceCtorEq,
      and_false, exists_false, false_or] at h
    obtain ⟨e, he, rfl, -⟩ := h
    exact ⟨rfl, List.mem_map_of_mem he⟩

theorem of_duration_mem {d : Float} (h : (name, .duration d) ∈ x.quantities s) :
    x.kind = .timer ∧ name ∈ Units.durationNames := by
  obtain ⟨kind, handle⟩ := x
  cases kind with
  | gauge => cases hanswer : Gauge.answer s handle <;> simp [quantities, hanswer] at h
  | counter => simp [quantities] at h
  | histogram => simp [quantities] at h
  | meter => simp [quantities] at h
  | timer =>
    simp only [quantities, List.cons_append, List.mem_cons, List.mem_append, List.mem_map, Prod.mk.injEq, reduceCtorEq,
      and_false, exists_false, false_or, or_false] at h
    obtain ⟨e, he, rfl, -⟩ := h
    exact ⟨rfl, List.mem_map_of_mem he⟩

theorem names_fieldsIn (units : Units) (x : Metric) (s : Store) :
    (x.fieldsIn units s).names = (NameMap.ofList (x.quantities s)).names := NameMap.names_map _ _

theorem get?_fieldsIn_of_mem (units : Units) {q : Quantity} (h : (name, q) ∈ x.quantities s) :
    (x.fieldsIn units s).get? name = some (q.shown units) := by
  rw [fieldsIn, NameMap.get?_map, NameMap.get?_ofList_of_mem (x.nodup_quantities s) h]
  rfl

theorem get?_fieldsIn_eq {u u' : Units} (hrate : ∀ r, (name, .rate r) ∈ x.quantities s → u'.rate = u.rate)
    (hduration : ∀ d, (name, .duration d) ∈ x.quantities s → u'.duration = u.duration) :
    (x.fieldsIn u' s).get? name = (x.fieldsIn u s).get? name := by
  apply NameMap.get?_map_congr
  intro q hq
  have hmem := NameMap.mem_of_get?_ofList hq
  cases q with
  | plain v => rfl
  | duration d => rw [Quantity.shown, Quantity.shown, hduration d hmem]
  | rate r => rw [Quantity.shown, Quantity.shown, hrate r hmem]

end Metric

theorem Point.field?_observed (now : Instant) (measurement : String) (fields : Fields) (name : String) :
    (observed now measurement fields).field? name = fields.get? name := rfl

structure Point.Shows (units : Units) (s : Store) (x : Metric) (p : Point) : Prop where
  count : ∀ n ∈ x.count? s, p.field? "count" = some (.integer n)
  rate : ∀ metered ∈ x.metered?, ∀ r ∈ (metered.get s).rates s.now,
    p.field? r.1 = some (.float (units.rate.perUnit r.2))
  duration : ∀ h : Handle .timer, x = ⟨.timer, h⟩ → ∀ d ∈ (Timer.histogram (s.get h)).durations,
    p.field? d.1 = some (.float (units.duration.inUnits d.2))

theorem Point.Shows.of_sameReadings {units : Units} {s s' : Store} {x : Metric} {p : Point} (h : s.SameReadings s')
    (hshows : p.Shows units s' x) : p.Shows units s x where
  count n hn := by
    apply hshows.count
    rw [h.count?]
    exact hn
  rate metered hmetered r hr := by
    apply hshows.rate metered hmetered
    rw [h.now, Meter.rates_of_tickUpTo_eq (h.tickUpTo_get metered)]
    exact hr
  duration handle hx d hd := by
    apply hshows.duration handle hx
    rw [h.timer_get]
    exact hd

theorem Metric.count_mem_quantities {x : Metric} {s : Store} {n : Int64} (h : x.count? s = some n) :
    ("count", .plain (.integer n)) ∈ x.quantities s := by
  obtain ⟨kind, handle⟩ := x
  cases kind with
  | gauge => cases h
  | counter =>
    cases h
    exact List.mem_cons_self
  | histogram =>
    cases h
    exact List.mem_cons_self
  | meter =>
    cases h
    exact List.mem_cons_self
  | timer =>
    cases h
    exact List.mem_cons_self

theorem Metric.shows_fieldsIn (units : Units) (s : Store) (x : Metric) (now : Instant) (name : String) :
    (Point.observed now name (x.fieldsIn units s)).Shows units s x := by
  constructor
  · intro n hn
    exact get?_fieldsIn_of_mem units (count_mem_quantities hn)
  · intro metered hmetered r hr
    refine get?_fieldsIn_of_mem units (q := .rate r.2) ?_
    obtain ⟨kind, handle⟩ := x
    cases kind with
    | gauge => cases hmetered
    | counter => cases hmetered
    | histogram => cases hmetered
    | meter =>
      cases hmetered
      exact List.mem_cons_of_mem _ (List.mem_map_of_mem hr)
    | timer =>
      cases hmetered
      exact List.mem_append_right _ (List.mem_map_of_mem hr)
  · rintro h hx d hd
    cases hx
    refine get?_fieldsIn_of_mem units (q := .duration d.2) ?_
    exact List.mem_append_left _ (List.mem_cons_of_mem _ (List.mem_map_of_mem hd))

structure Point.DifferInUnits (u u' : Units) (x : Metric) (p p' : Point) : Prop where
  measurement : p'.measurement = p.measurement
  timestamp : p'.timestamp = p.timestamp
  tags : p'.tags = p.tags
  names : p'.fields.names = p.fields.names
  plain : x.kind.isMetered = false → p' = p
  meter : x.kind = .meter → ∀ name ∉ Units.rateNames, p'.field? name = p.field? name
  rates : u'.duration = u.duration → ∀ name ∉ Units.rateNames, p'.field? name = p.field? name
  durations : u'.rate = u.rate → ∀ name ∉ Units.durationNames, p'.field? name = p.field? name

theorem Metric.differInUnits_fieldsIn (u u' : Units) (s : Store) (x : Metric) (now : Instant) (name : String) :
    Point.DifferInUnits u u' x (.observed now name (x.fieldsIn u s)) (.observed now name (x.fieldsIn u' s)) where
  measurement := Eq.refl name
  timestamp := Eq.refl (toString now.millis)
  tags := Eq.refl none
  names := (x.names_fieldsIn u' s).trans (x.names_fieldsIn u s).symm
  plain hplain := by
    refine congrArg (Point.observed now name) ?_
    apply NameMap.ext_get?
    intro field
    apply get?_fieldsIn_eq
    · intro r hr
      rw [(of_rate_mem hr).1] at hplain
      cases hplain
    · intro d hd
      rw [(of_duration_mem hd).1] at hplain
      cases hplain
  meter hmeter field hfield := by
    rw [Point.field?_observed, Point.field?_observed]
    apply get?_fieldsIn_eq
    · intro r hr
      exact absurd (of_rate_mem hr).2 hfield
    · intro d hd
      cases hmeter.symm.trans (of_duration_mem hd).1
  rates hsame field hfield := by
    rw [Point.field?_observed, Point.field?_observed]
    apply get?_fieldsIn_eq
    · intro r hr
      exact absurd (of_rate_mem hr).2 hfield
    · intro _ _
      exact hsame
  durations hsame field hfield := by
    rw [Point.field?_observed, Point.field?_observed]
    apply get?_fieldsIn_eq
    · intro _ _
      exact hsame
    · intro d hd
      exact absurd (of_duration_mem hd).2 hfield

namespace Cycle

def told (units : Units) (now : Instant) (x : Scene) : Point :=
  .observed now x.name (x.metric.fieldsIn units x.store)

structure Parallel (u u' : Units) (now : Instant) (start : Store) (all rest : List (String × Metric)) (c : Cycle)
    (s : Store) (c' : Cycle) (s' : Store) : Prop where
  store : s' = s
  readings : start.SameReadings s
  previous : c'.previous = c.previous
  skipped : c'.skipped = c.skipped
  filtered : c'.filtered = c.filtered
  points : ∃ scenes : List Scene, c.points = scenes.map (told u now) ∧ c'.points = scenes.map (told u' now) ∧
    (∀ x ∈ scenes, start.SameReadings x.store) ∧ (scenes.map Scene.entry ++ rest).Sublist all

variable {u u' : Units} {now : Instant} {start : Store} {all rest : List (String × Metric)} {c c' : Cycle}
  {s s' : Store} {suppress : Bool} {filter : Filter}

theorem visit_parallel {e : String × Metric} (h : Parallel u u' now start all (e :: rest) c s c' s') :
    (visit ⟨u, suppress, filter⟩ now c e s).Together (Parallel u u' now start all rest)
      (visit ⟨u', suppress, filter⟩ now c' e s') := by
  obtain ⟨name, x⟩ := e
  obtain ⟨rfl, hreadings, hprevious, hskipped, hfiltered, scenes, hpoints, hpoints', hscenes, hsublist⟩ := h
  have hlater : (scenes.map Scene.entry ++ rest).Sublist all :=
    ((List.sublist_cons_self (name, x) rest).append_left _).trans hsublist
  cases hpanic : panic? ⟨u, suppress, filter⟩ c.previous s' name x with
  | some payload =>
    have hpanic' : panic? ⟨u', suppress, filter⟩ c'.previous s' name x = some payload := by
      rw [hprevious]
      exact hpanic
    exact .inl ⟨_, result_visit_of_panic hpanic, result_visit_of_panic hpanic'⟩
  | none =>
    have hjudge : judge ⟨u', suppress, filter⟩ c'.previous s' name x =
        judge ⟨u, suppress, filter⟩ c.previous s' name x := by
      rw [hprevious]
      rfl
    rcases visit_cases ⟨u, suppress, filter⟩ now c name x s' hpanic with
      ⟨hrejects, hvisit⟩ | ⟨hadmits, hidle, hvisit⟩ | ⟨hadmits, hbusy, fields, hfields, hvisit⟩
    · have hrejects' : CycleSettings.filter ⟨u', suppress, filter⟩ s' name x = .ok false := hrejects
      exact .of_eq hvisit (visit_of_rejected hrejects')
        ⟨rfl, hreadings, hprevious, hskipped, congrArg (· + 1) hfiltered, scenes, hpoints, hpoints', hscenes, hlater⟩
    · have hadmits' : CycleSettings.filter ⟨u', suppress, filter⟩ s' name x = .ok true := hadmits
      obtain ⟨hjudged, -⟩ := (panic?_eq_none_iff_of_admitted hadmits).mp hpanic
      rw [← hprevious] at hjudged
      exact .of_eq hvisit (visit_of_idle hadmits' hjudged (by rw [hjudge, hidle]))
        ⟨rfl, hreadings, congrArg Prod.snd hjudge, congrArg (· + 1) hskipped, hfiltered, scenes, hpoints, hpoints',
          hscenes, hlater⟩
    · have hadmits' : CycleSettings.filter ⟨u', suppress, filter⟩ s' name x = .ok true := hadmits
      obtain ⟨hjudged, hread⟩ := (panic?_eq_none_iff_of_admitted hadmits).mp hpanic
      rw [← hprevious] at hjudged
      have hends := u.fields_ends (hread hbusy)
      have hends' := u'.fields_ends (hread hbusy)
      have hkept : start.SameReadings (u.fields x s').state := hreadings.trans ((u.isReading_fields x).keeps s')
      rw [Except.ok.inj (hfields.symm.trans hends.1)] at hvisit
      refine .of_eq hvisit (visit_of_reported hadmits' hjudged (by rw [hjudge, hbusy]) hends'.1)
        ⟨hends'.2.trans hends.2.symm, hkept, congrArg Prod.snd hjudge, hskipped, hfiltered,
          scenes ++ [⟨c.previous, s', name, x⟩], ?_, ?_, ?_, ?_⟩
      · simp [hpoints, told]
      · simp [hpoints', told]
      · intro y hy
        rcases List.mem_append.mp hy with hy | hy
        · exact hscenes y hy
        · rw [List.mem_singleton.mp hy]
          exact hreadings
      · simpa [Scene.entry] using hsublist

/-- Two cycles over one snapshot from one state, in different units: a panic ends both alike. Else they report the same
metrics at the same time under the same field names, and leave the same table, counts and store. -/
theorem units_only_convert (snapshot : Snapshot) (u u' : Units) (suppress : Bool) (filter : Filter)
    (previous : IdleTable) (now : Instant) (s : Store) :
    let built (units : Units) := build snapshot ⟨units, suppress, filter⟩ previous now s
    (∀ fault, (built u').result = .error fault ↔ (built u).result = .error fault) ∧
    (∀ c, (built u).result = .ok c →
      ∃ c' : Cycle, (built u').result = .ok c' ∧ (built u').state = (built u).state ∧
        c'.previous = c.previous ∧ c'.skipped = c.skipped ∧ c'.filtered = c.filtered ∧
        c'.points.map (fun p => (p.measurement, p.timestamp, p.fields.names)) =
          c.points.map (fun p => (p.measurement, p.timestamp, p.fields.names)) ∧
        ∃ scenes : List Scene, (scenes.map Scene.entry).Sublist snapshot.entries ∧
          c.points = scenes.map (told u now) ∧ c'.points = scenes.map (told u' now) ∧
          ∀ x ∈ scenes, Point.DifferInUnits u u' x.metric (told u now x) (told u' now x) ∧
            (told u now x).Shows u s x.metric ∧ (told u' now x).Shows u' s x.metric) ∧
    ((∃ c, (built u).result = .ok c) ↔
      ∀ x ∈ scenes snapshot ⟨u, suppress, filter⟩ previous now s, x.IsSafe ⟨u, suppress, filter⟩) := by
  intro built
  have hstart : Parallel u u' now s snapshot.entries snapshot.entries { previous } s { previous } s :=
    ⟨rfl, .refl s, rfl, rfl, rfl, [], rfl, rfl, nofun, List.Sublist.refl _⟩
  have hloop := Action.foldlM_together (f := visit ⟨u, suppress, filter⟩ now) (g := visit ⟨u', suppress, filter⟩ now)
    (fun _ _ _ _ _ _ => visit_parallel) snapshot.entries hstart
  rcases hloop with ⟨fault, hone, hother⟩ | ⟨c, c', hone, hother, hparallel⟩
  · refine ⟨fun fault' => ?_, fun c hc => ?_, exists_build_iff⟩
    · rw [show (built u).result = .error fault from hone, show (built u').result = .error fault from hother]
    · cases hc.symm.trans hone
  · refine ⟨fun fault' => ?_, fun c₁ hc => ?_, exists_build_iff⟩
    · rw [show (built u).result = .ok c from hone, show (built u').result = .ok c' from hother]
      exact ⟨nofun, nofun⟩
    · cases hc.symm.trans hone
      obtain ⟨hstore, -, hprevious, hskipped, hfiltered, scenes, hpoints, hpoints', hscenes, hsublist⟩ := hparallel
      refine ⟨c', hother, hstore, hprevious, hskipped, hfiltered, ?_, scenes, ?_, hpoints, hpoints', ?_⟩
      · rw [hpoints, hpoints', List.map_map, List.map_map]
        apply List.map_congr_left
        intro x _
        have hdiffer := x.metric.differInUnits_fieldsIn u u' x.store now x.name
        exact Prod.ext hdiffer.measurement (Prod.ext hdiffer.timestamp hdiffer.names)
      · rw [List.append_nil] at hsublist
        exact hsublist
      · intro x hx
        refine ⟨x.metric.differInUnits_fieldsIn u u' x.store now x.name, ?_, ?_⟩
        · exact (x.metric.shows_fieldsIn u x.store now x.name).of_sameReadings (hscenes x hx)
        · exact (x.metric.shows_fieldsIn u' x.store now x.name).of_sameReadings (hscenes x hx)

theorem converts_nothing_past_words :
    let snapshot := Snapshot.insert {} "load" ⟨.meter, ⟨0⟩⟩
    let s : Store := { meters := #[{ Meter.startedAt 0 with count := Int64.maxValue }] }
    let built (units : Units) :=
      build snapshot { units } ⟨NameMap.empty.insert "load" Int64.minValue⟩ (Instant.ofEpochNanos 0) s
    (built {}).result = .error (.panic Word.subtractOverflow) ∧
      (built { rate := .minutes }).result = .error (.panic Word.subtractOverflow) := by
  intro snapshot s built
  have hentries : snapshot.entries = [("load", ⟨.meter, ⟨0⟩⟩)] := by decide
  constructor
  · exact (result_build_of_panic hentries (by decide) (Instant.ofEpochNanos 0)).2
  · exact (result_build_of_panic hentries (by decide) (Instant.ofEpochNanos 0)).2

end Cycle

end MetricReporting
