import MetricReporting.Proofs.Filtering
import MetricReporting.Proofs.Readings

namespace MetricReporting

def Metric.isIdle (t : IdleTable) (s : Store) (name : String) (x : Metric) : Bool :=
  x.kind.isMetered && (x.count? s).any fun count => (t.get? name).any fun stored => decide (count ≤ stored)

def IdleTable.covers (t : IdleTable) (i : Instruments) (name : String) : Bool :=
  (i.registry.metrics.get? name).any fun x => x.isIdle t i.store name

theorem Metric.isIdle_congr {t t' : IdleTable} {s s' : Store} {name : String} (h : s.SameReadings s')
    (htable : t'.get? name = t.get? name) (x : Metric) : x.isIdle t' s' name = x.isIdle t s name := by
  rw [isIdle, isIdle, h.count?, htable]

namespace Cycle

/-- A cycle is another one, the plain one, without the points of the metrics that are idle. It has counted those, and
the plain one has made nothing of them and of the table. -/
structure Pared (idle : String → Bool) (previous : IdleTable) (c plain : Cycle) : Prop where
  points : c.points = plain.points.filter fun p => !idle p.measurement
  removed : c.points.length + c.skipped = plain.points.length
  filtered : c.filtered = plain.filtered
  unskipped : plain.skipped = 0
  table : plain.previous = previous

variable {idle : String → Bool} {previous : IdleTable} {c plain : Cycle} {now : Instant} {name : String}

namespace Pared

theorem reject (h : Pared idle previous c plain) :
    Pared idle previous { c with filtered := c.filtered + 1 } { plain with filtered := plain.filtered + 1 } :=
  { h with filtered := congrArg (· + 1) h.filtered }

theorem remove (h : Pared idle previous c plain) (hidle : idle name = true) (t : IdleTable) (fields : Fields) :
    Pared idle previous { c with previous := t, skipped := c.skipped + 1 }
      { plain with points := plain.points ++ [.observed now name fields] } where
  points := by
    rw [List.filter_append, ← h.points]
    simp [Point.observed, hidle]
  removed := by
    simp [← h.removed, Nat.add_assoc]
  filtered := h.filtered
  unskipped := h.unskipped
  table := h.table

theorem report (h : Pared idle previous c plain) (hbusy : idle name = false) (t : IdleTable) (fields : Fields) :
    Pared idle previous { c with points := c.points ++ [.observed now name fields], previous := t }
      { plain with points := plain.points ++ [.observed now name fields] } where
  points := by
    rw [List.filter_append, ← h.points]
    simp [Point.observed, hbusy]
  removed := by
    simp [← h.removed, Nat.add_right_comm]
  filtered := h.filtered
  unskipped := h.unskipped
  table := h.table

end Pared

theorem judge_of_suppressing (settings : CycleSettings) (hon : settings.skipIdle = true) (t : IdleTable) (s : Store)
    (name : String) (x : Metric) : (judge settings t s name x).1 = x.isIdle t s name := by
  cases hx : x.kind.isMetered with
  | false => rw [judge_of_plain settings t s name hx, Metric.isIdle, hx, Bool.false_and]
  | true =>
    obtain ⟨count, hcount⟩ := Metric.exists_count hx s
    have hidle := t.isIdle_iff_le name count
    rw [judge_of_count settings t s name hx hcount, Metric.isIdle, hx, hcount, hon, Bool.true_and, Option.any_some]
    have hskip : (t.skip name count true).1 = t.isIdle name count := by
      unfold IdleTable.skip
      cases t.isIdle name count <;> rfl
    rw [hskip, Bool.eq_iff_iff, hidle]
    cases t.get? name with
    | none => simp
    | some stored => simp

theorem judge_of_not_suppressing (settings : CycleSettings) (hoff : settings.skipIdle = false) (t : IdleTable)
    (s : Store) (name : String) (x : Metric) : judge settings t s name x = (false, t) := by
  unfold judge
  split
  · rfl
  · rw [hoff]
    rfl

structure Abreast (idle : String → Bool) (previous : IdleTable) (decides : String → Kind → Bool)
    (rest : List (String × Metric)) (c : Cycle) (s : Store) (plain : Cycle) (s' : Store) : Prop where
  pared : Pared idle previous c plain
  alike : s.Alike s'
  sound : ∀ e ∈ rest, decides e.1 e.2.kind = true → e.2.isPoisoned s = false
  names : rest.Pairwise fun a b => a.1 ≠ b.1
  idle_eq : ∀ e ∈ rest, idle e.1 = e.2.isIdle previous s e.1
  get?_eq : ∀ e ∈ rest, c.previous.get? e.1 = previous.get? e.1

variable {decides : String → Kind → Bool} {units : Units}

theorem Abreast.tail {rest : List (String × Metric)} {x : Metric} {s s' : Store}
    (h : Abreast idle previous decides ((name, x) :: rest) c s plain s') {c₁ plain₁ : Cycle} {s₁ s₁' : Store}
    (hpared : Pared idle previous c₁ plain₁) (hreadings : s.SameReadings s₁) (halike : s₁.Alike s₁')
    (htable : ∀ other, name ≠ other → c₁.previous.get? other = c.previous.get? other) :
    Abreast idle previous decides rest c₁ s₁ plain₁ s₁' where
  pared := hpared
  alike := halike
  sound e he hadmits := (hreadings.isPoisoned e.2).trans (h.sound e (List.mem_cons_of_mem _ he) hadmits)
  names := h.names.of_cons
  idle_eq e he := (h.idle_eq e (List.mem_cons_of_mem _ he)).trans (Metric.isIdle_congr hreadings rfl e.2).symm
  get?_eq e he :=
    (htable e.1 ((List.pairwise_cons.mp h.names).1 e he)).trans (h.get?_eq e (List.mem_cons_of_mem _ he))

theorem Abreast.panic?_eq {rest : List (String × Metric)} {x : Metric} {s s' : Store}
    (h : Abreast idle previous decides ((name, x) :: rest) c s plain s') :
    panic? ⟨units, false, .ofKinds decides⟩ plain.previous s' name x =
      panic? ⟨units, true, .ofKinds decides⟩ c.previous s name x := by
  have htable : plain.previous.get? name = c.previous.get? name := by
    rw [h.pared.table, h.get?_eq _ List.mem_cons_self]
  simp only [panic?, Filter.ofKinds]
  cases hadmits : decides name x.kind with
  | false => rfl
  | true =>
    simp only [judgePanic?_congr htable h.alike.toSameReadings.sameCounts x, x.panic?_of_alike h.alike,
      judge_of_not_suppressing ⟨units, false, .ofKinds decides⟩ rfl]
    cases judgePanic? c.previous s name x with
    | some payload => rfl
    | none =>
      cases hidle : (judge ⟨units, true, .ofKinds decides⟩ c.previous s name x).1 with
      | false => rfl
      | true =>
        have hgauge : x.kind ≠ .gauge := by
          intro hkind
          rw [judge_of_plain _ c.previous s name (by rw [hkind]; rfl)] at hidle
          cases hidle
        exact (x.panic?_eq_none_iff s).mpr
          ⟨fun hkind => absurd hkind hgauge, h.sound _ List.mem_cons_self hadmits⟩

theorem visit_abreast {e : String × Metric} {rest : List (String × Metric)} {s s' : Store}
    (h : Abreast idle previous decides (e :: rest) c s plain s') :
    (visit ⟨units, true, .ofKinds decides⟩ now c e s).Together (Abreast idle previous decides rest)
      (visit ⟨units, false, .ofKinds decides⟩ now plain e s') := by
  obtain ⟨name, x⟩ := e
  have hpanic : panic? ⟨units, false, .ofKinds decides⟩ plain.previous s' name x =
      panic? ⟨units, true, .ofKinds decides⟩ c.previous s name x := h.panic?_eq
  cases hcalm : panic? ⟨units, true, .ofKinds decides⟩ c.previous s name x with
  | some payload =>
    exact .inl ⟨_, result_visit_of_panic hcalm, result_visit_of_panic (hpanic.trans hcalm)⟩
  | none =>
    have hplain := judge_of_not_suppressing ⟨units, false, .ofKinds decides⟩ rfl plain.previous s' name x
    rcases visit_cases ⟨units, false, .ofKinds decides⟩ now plain name x s' (hpanic.trans hcalm) with
      ⟨hrejects, hoff⟩ | ⟨-, hidle, -⟩ | ⟨hadmits, -, fields, hfields, hoff⟩
    · exact .of_eq (visit_of_rejected hrejects) hoff (h.tail h.pared.reject (.refl s) h.alike fun _ _ => rfl)
    · rw [hplain] at hidle
      cases hidle
    · rw [hplain] at hoff
      have hadmits' : CycleSettings.filter ⟨units, true, .ofKinds decides⟩ s name x = .ok true := hadmits
      obtain ⟨hjudged, -⟩ := (panic?_eq_none_iff_of_admitted hadmits').mp hcalm
      have hreading := units.isReading_fields x
      have htable (other : String) (hne : name ≠ other) :=
        get?_judge_of_ne ⟨units, true, .ofKinds decides⟩ c.previous s x hne
      -- The judgement goes by the entry of the table for this very name, which is still the first one.
      have hjudge := judge_of_suppressing ⟨units, true, .ofKinds decides⟩ rfl c.previous s name x
      rw [Metric.isIdle_congr (.refl s) (h.get?_eq _ List.mem_cons_self) x, ← h.idle_eq _ List.mem_cons_self] at hjudge
      cases hidle : idle name with
      | true =>
        rw [hidle] at hjudge
        have hmetered : x.kind.isMetered = true := by
          by_contra hno
          rw [judge_of_plain _ c.previous s name (Bool.eq_false_iff.mpr hno)] at hjudge
          cases hjudge
        have halike : s.Alike (units.fields x s').state :=
          ⟨h.alike.toSameReadings.trans (hreading.keeps s'), (units.probes_fields hmetered s').trans h.alike.probes⟩
        exact .of_eq (visit_of_idle hadmits' hjudged hjudge) hoff
          (h.tail (h.pared.remove hidle _ fields) (.refl s) halike htable)
      | false =>
        rw [hidle] at hjudge
        have hsame := (hreading.result_eq h.alike).symm.trans hfields
        exact .of_eq (visit_of_reported hadmits' hjudged hjudge hsame) hoff
          (h.tail (h.pared.report hidle _ fields) (hreading.keeps s) (hreading.alike h.alike) htable)

theorem measurements_of_visits (entries : List (String × Metric)) {c c' : Cycle} {s : Store}
    (h : (entries.foldlM (visit ⟨units, false, .ofKinds decides⟩ now) c s).result = .ok c') :
    c'.points.map (·.measurement) =
      c.points.map (·.measurement) ++ (entries.filter fun e => decides e.1 e.2.kind).map Prod.fst := by
  induction entries generalizing c s with
  | nil =>
    cases h
    rw [List.filter_nil, List.map_nil, List.append_nil]
  | cons e rest ih =>
    obtain ⟨name, x⟩ := e
    rw [List.foldlM_cons] at h
    obtain ⟨c₁, hvisit, hrest, -⟩ := Action.result_bind_eq_ok h
    rw [ih hrest]
    rcases visit_cases ⟨units, false, .ofKinds decides⟩ now c name x s (panic?_of_ok hvisit) with
      ⟨hrejects, heq⟩ | ⟨-, hidle, -⟩ | ⟨hadmits, -, fields, -, heq⟩
    · rw [heq] at hvisit
      cases hvisit
      have hno : decides name x.kind = false := Except.ok.inj hrejects
      rw [List.filter_cons_of_neg (by simp [hno])]
    · rw [judge_of_not_suppressing _ rfl] at hidle
      cases hidle
    · rw [heq] at hvisit
      cases hvisit
      have hyes : decides name x.kind = true := Except.ok.inj hadmits
      rw [List.filter_cons_of_pos (by simp [hyes])]
      simp [Point.observed]

theorem exists_plain_iff {snapshot : Snapshot} {s : Store} (hnames : snapshot.entries.Pairwise fun a b => a.1 ≠ b.1) :
    (∃ plain, (build snapshot ⟨units, false, .ofKinds decides⟩ previous now s).result = .ok plain) ↔
      ∀ x ∈ scenes snapshot ⟨units, false, .ofKinds decides⟩ previous now s, decides x.name x.metric.kind = true →
        (x.metric.kind = .gauge → x.metric.panic? x.store = none) ∧ x.metric.isPoisoned s = false ∧
          outruns previous s x.name x.metric = false := by
  rw [exists_build_iff]
  refine forall₂_congr fun x hx => ?_
  have hcounts := sameCounts_of_mem_scenesFrom ⟨units, false, .ofKinds decides⟩ now snapshot.entries { previous } s x hx
  have hfits := outruns_congr (get?_table_of_mem_scenesFrom hnames hx) hcounts x.metric
  have hpoisoned := hcounts.poisoned x.metric
  have hplain := judge_of_not_suppressing ⟨units, false, .ofKinds decides⟩ rfl x.table x.store x.name x.metric
  simp only [Scene.IsSafe, Scene.IsCalm, Scene.isReadable_iff, Scene.isAdmitted, Filter.ofKinds, hplain, hfits, hpoisoned]
  grind

/-- A cycle that suppresses idle metrics gives the points that it gives without that, except for those of the meters
and timers whose count is not above the one in the table given to it. A panic ends both alike, unless it is at a
poisoned timer, which only the suppressing one may leave out. -/
theorem suppression_only_removes (i : Instruments) (decides : String → Kind → Bool) (units : Units)
    (previous : IdleTable) (now : Instant) :
    (i.registry.poisoned = true ∧ (Registry.snapshot i).Ends (.error (.panic Registry.poison)) i) ∨
    ∃ snapshot : Snapshot, (Registry.snapshot i).Ends (.ok snapshot) i ∧
      let built (suppress : Bool) := (build snapshot ⟨units, suppress, .ofKinds decides⟩ previous now i.store).result
      (∀ plain, built false = .ok plain → ∃ c, built true = .ok c ∧ Pared (previous.covers i) previous c plain ∧
        plain.points.map (·.measurement) =
          (snapshot.entries.filter fun e => decides e.1 e.2.kind).map Prod.fst) ∧
      ((∀ e ∈ snapshot.entries, decides e.1 e.2.kind = true → e.2.isPoisoned i.store = false) →
        ∀ fault, built true = .error fault ↔ built false = .error fault) ∧
      ((∃ plain, built false = .ok plain) ↔
        ∀ x ∈ scenes snapshot ⟨units, false, .ofKinds decides⟩ previous now i.store, decides x.name x.metric.kind = true →
          (x.metric.kind = .gauge → x.metric.panic? x.store = none) ∧ x.metric.isPoisoned i.store = false ∧
            outruns previous i.store x.name x.metric = false) := by
  cases sound : i.registry.poisoned with
  | true => exact .inl ⟨rfl, .bind_error (Registry.metricsByName_of_poisoned i sound)⟩
  | false =>
    right
    obtain ⟨snapshot, hsnapshot, hmem⟩ := Registry.snapshot_of_sound i sound
    refine ⟨snapshot, hsnapshot, ?_⟩
    intro built
    have hnames := snapshot.pairwise_ne_of_registered fun e he => (hmem e).mp he
    have hloop (hsound : ∀ e ∈ snapshot.entries, decides e.1 e.2.kind = true → e.2.isPoisoned i.store = false) :=
      Action.foldlM_together (f := visit ⟨units, true, .ofKinds decides⟩ now)
        (g := visit ⟨units, false, .ofKinds decides⟩ now) (fun _ _ _ _ _ _ => visit_abreast) snapshot.entries
        (show Abreast (previous.covers i) previous decides snapshot.entries { previous } i.store { previous } i.store from
          ⟨⟨rfl, rfl, rfl, rfl, rfl⟩, .refl i.store, hsound, hnames,
            fun e he => by rw [IdleTable.covers, (hmem e).mp he, Option.any_some], fun _ _ => rfl⟩)
    refine ⟨fun plain hplain => ?_, fun hsound fault => ?_, exists_plain_iff hnames⟩
    · -- The plain cycle has read every metric that it admits, so none of them is poisoned.
      have hsound : ∀ e ∈ snapshot.entries, decides e.1 e.2.kind = true → e.2.isPoisoned i.store = false := by
        intro e he hadmits
        rw [← (accountFrom_of_built hplain).1] at he
        obtain ⟨x, hx, rfl⟩ := List.mem_map.mp he
        exact ((exists_plain_iff hnames).mp ⟨plain, hplain⟩ x hx hadmits).2.1
      rcases hloop hsound with ⟨fault, -, hoff⟩ | ⟨c, plain', hon, hoff, habreast⟩
      · cases hplain.symm.trans hoff
      · cases hplain.symm.trans hoff
        exact ⟨c, hon, habreast.pared, measurements_of_visits snapshot.entries hoff⟩
    · rcases hloop hsound with ⟨other, hon, hoff⟩ | ⟨c, plain, hon, hoff, -⟩
      · rw [show built true = .error other from hon, show built false = .error other from hoff]
      · rw [show built true = .ok c from hon, show built false = .ok plain from hoff]
        exact ⟨nofun, nofun⟩

theorem suppression_only_removes_one_name_of_a_meter :
    let decides : String → Kind → Bool := fun name _ => name != "spare"
    let metrics :=
      [("load", ⟨.gauge, ⟨0⟩⟩), ("hits", ⟨.counter, ⟨0⟩⟩), ("spare", ⟨.counter, ⟨0⟩⟩), ("rate", ⟨.meter, ⟨0⟩⟩),
        ("alias", ⟨.meter, ⟨0⟩⟩), ("wait", ⟨.timer, ⟨0⟩⟩)]
    let store : Store := {
      probes := #[.constant (.integer 5)], gauges := #[⟨⟨0⟩⟩], counters := #[{}], meters := #[Meter.startedAt 0]
      timers := #[Timer.startedAt 0] }
    let i : Instruments := { store, registry := { metrics := NameMap.ofList metrics } }
    let previous : IdleTable := ⟨(NameMap.empty.insert "alias" 0).insert "wait" 3⟩
    let now := Instant.ofEpochNanos 0
    ∃ (snapshot : Snapshot) (c plain : Cycle), (Registry.snapshot i).Ends (.ok snapshot) i ∧
      (build snapshot ⟨{}, true, .ofKinds decides⟩ previous now store).result = .ok c ∧
      (build snapshot ⟨{}, false, .ofKinds decides⟩ previous now store).result = .ok plain ∧
      Pared (previous.covers i) previous c plain ∧
      plain.points.map (·.measurement) = ["load", "hits", "alias", "rate", "wait"] ∧
      c.points.map (·.measurement) = ["load", "hits", "rate"] := by
  intro decides metrics store i previous now
  rcases suppression_only_removes i decides {} previous now with
    ⟨hpoisoned, -⟩ | ⟨snapshot, hsnapshot, hpared, -, hplain⟩
  · cases hpoisoned
  have hconcrete : (Registry.snapshot i).result = .ok
      { gauges := NameMap.ofList [("load", ⟨0⟩)], counters := NameMap.ofList [("hits", ⟨0⟩), ("spare", ⟨0⟩)]
        meters := NameMap.ofList [("rate", ⟨0⟩), ("alias", ⟨0⟩)], timers := NameMap.ofList [("wait", ⟨0⟩)] } := by
    rfl
  cases hconcrete.symm.trans hsnapshot.1
  obtain ⟨plain, hoff⟩ := hplain.mpr (by decide +kernel)
  obtain ⟨c, hon, hpared, hnames⟩ := hpared plain hoff
  have hkept : c.points.map (·.measurement) =
      (plain.points.map (·.measurement)).filter fun name => !previous.covers i name := by
    rw [List.filter_map, hpared.points]
    rfl
  have hall : plain.points.map (·.measurement) = ["load", "hits", "alias", "rate", "wait"] := hnames.trans (by decide)
  refine ⟨_, c, plain, hsnapshot, hon, hoff, hpared, hall, ?_⟩
  rw [hkept, hall]
  decide

end Cycle

end MetricReporting
