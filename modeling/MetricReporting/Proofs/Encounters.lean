import MetricReporting.Proofs.HighWater
import MetricReporting.Proofs.Suppression

namespace MetricReporting

namespace IdleTable

def RisesTo (t t' : IdleTable) : Prop :=
  ∀ name stored, t.get? name = some stored → ∃ stored', t'.get? name = some stored' ∧ stored ≤ stored'

variable {t t' t'' : IdleTable}

theorem RisesTo.refl (t : IdleTable) : t.RisesTo t := fun _ stored h => ⟨stored, h, Int64.le_refl stored⟩

theorem RisesTo.trans (h : t.RisesTo t') (h' : t'.RisesTo t'') : t.RisesTo t'' := by
  intro name stored hstored
  obtain ⟨stored', hstored', hle⟩ := h name stored hstored
  obtain ⟨stored'', hstored'', hle'⟩ := h' name stored' hstored'
  exact ⟨stored'', hstored'', Int64.le_trans hle hle'⟩

theorem risesTo_skipAll (t : IdleTable) (suppress : Bool) (readings : List (String × Int64)) :
    t.RisesTo (t.skipAll suppress readings).2 := by
  cases suppress with
  | false =>
    rw [(skipAll_false t readings).2]
    exact .refl t
  | true =>
    intro name stored hstored
    exact ((HighWater.self t).skipAll readings).le (List.mem_append_left _ (NameMap.get?_eq_some_iff.mp hstored))

theorem risesTo_skip (t : IdleTable) (name : String) (count : Int64) (suppress : Bool) :
    t.RisesTo (t.skip name count suppress).2 := t.risesTo_skipAll suppress [(name, count)]

end IdleTable

namespace Scene

def read? (x : Scene) : Option Int64 :=
  match (x.metric.readCount x.store).result with
  | .ok count => count
  | .error _ => none

def warning? (settings : CycleSettings) (x : Scene) : Option Event := do
  let stored ← x.table.get? x.name
  let count ← x.read?
  if x.isAdmitted settings && x.isMetered && decide (count < stored) then
    return .wentBackwards x.name stored count
  else
    none

variable {settings : CycleSettings} {x : Scene}

theorem read?_of_panic {payload : Panic} (h : x.metric.countPanic? x.store = some payload) : x.read? = none := by
  rw [read?, Metric.readCount_of_panic h]

theorem read?_of_calm (h : x.metric.countPanic? x.store = none) : x.read? = x.metric.count? x.store := by
  rw [read?, Metric.readCount_of_calm h]

theorem count?_of_read? {count : Int64} (h : x.read? = some count) : x.metric.count? x.store = some count := by
  cases hpanic : x.metric.countPanic? x.store with
  | some payload => cases (read?_of_panic hpanic).symm.trans h
  | none => exact (read?_of_calm hpanic).symm.trans h

theorem warning?_of_rejected (h : x.isAdmitted settings = false) : x.warning? settings = none := by
  simp [warning?, h]

theorem warning?_of_plain (h : x.isMetered = false) : x.warning? settings = none := by
  simp [warning?, h]

theorem warning?_of_unknown (h : x.table.get? x.name = none) : x.warning? settings = none := by
  rw [warning?, h]
  rfl

theorem warning?_of_lt {stored count : Int64} (hadmitted : x.isAdmitted settings = true) (hmetered : x.isMetered = true)
    (hstored : x.table.get? x.name = some stored) (hread : x.read? = some count) (hlt : count < stored) :
    x.warning? settings = some (.wentBackwards x.name stored count) := by
  simp [warning?, hadmitted, hmetered, hstored, hread, hlt]

theorem warning?_of_le {stored : Int64} (hstored : x.table.get? x.name = some stored)
    (hle : ∀ count, x.read? = some count → stored ≤ count) : x.warning? settings = none := by
  cases hread : x.read? with
  | none => simp [warning?, hread]
  | some count => simp [warning?, hstored, hread, Int64.not_lt.mpr (hle count hread)]

end Scene

namespace Cycle

variable {settings : CycleSettings} {now : Instant}

theorem warnings_of_admitted (x : Scene) (h : x.isAdmitted settings = true)
    (hcalm : x.metric.countPanic? x.store = none) :
    warnings x.table x.store x.name x.metric = (x.warning? settings).toList := by
  have hread := Scene.read?_of_calm hcalm
  cases hm : x.isMetered with
  | false =>
    have hactivity : activity? x.store x.metric = none := if_neg (ne_true_of_eq_false hm)
    rw [warnings, hactivity, Scene.warning?_of_plain hm]
    rfl
  | true =>
    obtain ⟨count, hcount⟩ := Metric.exists_count hm x.store
    have hactivity : activity? x.store x.metric = some count := (if_pos hm).trans hcount
    rw [hcount] at hread
    simp only [warnings, hactivity, IdleTable.warnings]
    cases hstored : x.table.get? x.name with
    | none =>
      rw [Scene.warning?_of_unknown hstored]
      rfl
    | some stored =>
      dsimp only
      by_cases hlt : count < stored
      · rw [if_pos hlt, Scene.warning?_of_lt h hm hstored hread hlt]
        rfl
      · rw [if_neg hlt, Scene.warning?_of_le hstored fun other hother => ?_]
        · rfl
        · cases hread.symm.trans hother
          exact Int64.not_lt.mp hlt

theorem warning?_of_judgePanic? {x : Scene} {payload : Panic}
    (h : judgePanic? x.table x.store x.name x.metric = some payload) : x.warning? settings = none := by
  rcases of_judgePanic?_eq_some h with hcount | ⟨hcount, -, count, hactive, hoverflows⟩
  · have hread := Scene.read?_of_panic hcount
    simp [Scene.warning?, hread]
  · cases hadmitted : x.isAdmitted settings with
    | false => exact Scene.warning?_of_rejected hadmitted
    | true =>
      have hquiet := warnings_of_admitted x hadmitted hcount
      simp only [warnings, hactive, IdleTable.warnings_of_overflows hoverflows] at hquiet
      exact Option.toList_eq_nil_iff.mp hquiet.symm

theorem events_visit (settings : CycleSettings) (now : Instant) (c : Cycle) (name : String) (metric : Metric)
    (s : Store) :
    (visit settings now c (name, metric) s).events =
      (Scene.warning? settings ⟨c.previous, s, name, metric⟩).toList := by
  cases hfilter : settings.filter s name metric with
  | error payload =>
    rw [Scene.warning?_of_rejected (by simp [Scene.isAdmitted, hfilter])]
    simp [visit, Action.bind_apply, Action.get, hfilter, Action.panic, Action.stop]
  | ok admitted =>
    cases admitted with
    | false =>
      rw [visit_of_rejected hfilter, Scene.warning?_of_rejected (Scene.isAdmitted_of_ok hfilter)]
      rfl
    | true =>
      rw [visit_eq_of_admitted settings now c name metric s hfilter]
      cases hjudged : judgePanic? c.previous s name metric with
      | some payload =>
        rw [Action.bind_of_error (by rw [suppress_of_panic settings hjudged]), suppress_of_panic settings hjudged,
          warning?_of_judgePanic? (x := ⟨c.previous, s, name, metric⟩) hjudged]
        rfl
      | none =>
        obtain ⟨hcount, -⟩ := of_judgePanic?_eq_none hjudged
        rw [Action.bind_of_ok (by rw [suppress_of_calm hjudged]), suppress_of_calm hjudged,
          ← warnings_of_admitted ⟨c.previous, s, name, metric⟩ (Scene.isAdmitted_of_ok hfilter) hcount]
        refine (congrArg (_ ++ ·) ?_).trans (List.append_nil _)
        dsimp only
        split
        · rfl
        · exact (settings.units.silent_fields metric).bind (fun _ _ => rfl) s

theorem events_visits (settings : CycleSettings) (now : Instant) (entries : List (String × Metric)) (c : Cycle)
    (s : Store) :
    (entries.foldlM (visit settings now) c s).events =
      (scenesFrom settings now c s entries).filterMap (Scene.warning? settings) := by
  induction entries generalizing c s with
  | nil => rfl
  | cons e rest ih =>
    obtain ⟨name, metric⟩ := e
    have hfirst := events_visit settings now c name metric s
    rw [List.foldlM_cons]
    cases hvisit : (visit settings now c (name, metric) s).result with
    | error fault =>
      rw [Action.bind_of_error hvisit, scenesFrom_cons_of_error hvisit, hfirst, List.filterMap_cons]
      cases Scene.warning? settings ⟨c.previous, s, name, metric⟩ <;> rfl
    | ok c' =>
      rw [Action.bind_of_ok hvisit, scenesFrom_cons_of_ok hvisit, hfirst, ih, List.filterMap_cons]
      cases Scene.warning? settings ⟨c.previous, s, name, metric⟩ <;> rfl

theorem risesTo_judge (settings : CycleSettings) (t : IdleTable) (s : Store) (name : String) (metric : Metric) :
    t.RisesTo (judge settings t s name metric).2 := by
  unfold judge
  split
  · exact .refl t
  · exact t.risesTo_skip _ _ _

def Settled (settings : CycleSettings) (t : IdleTable) : Prop := settings.skipIdle = true ∨ t = {}

theorem Settled.visit {c c' : Cycle} {entry : String × Metric} {s : Store} (h : Settled settings c.previous)
    (hvisit : (visit settings now c entry s).result = .ok c') : Settled settings c'.previous := by
  cases hskip : settings.skipIdle with
  | true => exact .inl hskip
  | false =>
    rcases h with hon | hempty
    · cases hskip.symm.trans hon
    · exact .inr ((previous_visit hskip hvisit).trans hempty)

theorem warning?_of_busy {x : Scene} (hsettled : Settled settings x.table)
    (hbusy : (judge settings x.table x.store x.name x.metric).1 = false) : x.warning? settings = none := by
  rcases hsettled with hon | hempty
  · cases hm : x.isMetered with
    | false => exact Scene.warning?_of_plain hm
    | true =>
      cases hstored : x.table.get? x.name with
      | none => exact Scene.warning?_of_unknown hstored
      | some stored =>
        refine Scene.warning?_of_le hstored fun count hread => ?_
        have hmetered : x.metric.kind.isMetered = true := hm
        rw [judge_of_suppressing settings hon, Metric.isIdle, hmetered, Scene.count?_of_read? hread, hstored] at hbusy
        have hlt : stored < count := by simpa using hbusy
        exact Int64.le_of_lt hlt
  · apply Scene.warning?_of_unknown
    rw [hempty]
    rfl

theorem risesTo_visit {c c' : Cycle} {entry : String × Metric} {s : Store}
    (h : (visit settings now c entry s).result = .ok c') : c.previous.RisesTo c'.previous := by
  obtain ⟨name, metric⟩ := entry
  have hjudge := risesTo_judge settings c.previous s name metric
  rcases visit_cases settings now c name metric s (panic?_of_ok h) with
    ⟨-, hvisit⟩ | ⟨-, -, hvisit⟩ | ⟨-, -, fields, -, hvisit⟩ <;> rw [hvisit] at h <;> cases h
  · exact .refl c.previous
  · exact hjudge
  · exact hjudge

theorem points_visit {c c' : Cycle} {name : String} {metric : Metric} {s : Store}
    (hsettled : Settled settings c.previous) (h : (visit settings now c (name, metric) s).result = .ok c') :
    c'.points = c.points ∨
      Scene.warning? settings ⟨c.previous, s, name, metric⟩ = none ∧
        ∃ p, c'.points = c.points ++ [p] ∧ Scene.Tells settings now ⟨c.previous, s, name, metric⟩ p := by
  rcases visit_cases settings now c name metric s (panic?_of_ok h) with
    ⟨-, hvisit⟩ | ⟨-, -, hvisit⟩ | ⟨-, hbusy, fields, hfields, hvisit⟩ <;> rw [hvisit] at h <;> cases h
  · exact .inl rfl
  · exact .inl rfl
  · exact .inr ⟨warning?_of_busy hsettled hbusy, _, rfl, rfl, rfl, rfl, hfields⟩

structure Toured (settings : CycleSettings) (now : Instant) (c : Cycle) (encounters : List Scene)
    (cycle : Cycle) : Prop where
  told : ∃ told points, told.Sublist encounters ∧ (∀ x ∈ told, x.warning? settings = none) ∧
    cycle.points = c.points ++ points ∧
    List.Forall₂ (fun x p => Scene.Tells settings now x p) told points
  rises : c.previous.RisesTo cycle.previous
  leaves : ∀ x ∈ encounters, x.table.RisesTo cycle.previous

theorem toured_of_visits (entries : List (String × Metric)) {c cycle : Cycle} {s : Store}
    (hsettled : Settled settings c.previous) (h : (entries.foldlM (visit settings now) c s).result = .ok cycle) :
    Toured settings now c (scenesFrom settings now c s entries) cycle := by
  induction entries generalizing c s with
  | nil =>
    cases h
    exact ⟨⟨[], [], .slnil, List.forall_mem_nil _, (List.append_nil _).symm, .nil⟩, .refl _, List.forall_mem_nil _⟩
  | cons e rest ih =>
    obtain ⟨name, metric⟩ := e
    rw [List.foldlM_cons] at h
    obtain ⟨c', hvisit, hrest, -⟩ := Action.result_bind_eq_ok h
    obtain ⟨⟨told, points, hsublist, hunwarned, hpoints, htells⟩, hrises, hleaves⟩ :=
      ih (hsettled.visit hvisit) hrest
    -- What this visit leaves is only raised by the rest of the cycle.
    have hfirst := (risesTo_visit hvisit).trans hrises
    rw [scenesFrom_cons_of_ok hvisit]
    refine ⟨?_, hfirst, List.forall_mem_cons.mpr ⟨hfirst, hleaves⟩⟩
    rcases points_visit hsettled hvisit with hnone | ⟨hquiet, p, hone, htold⟩
    · rw [hnone] at hpoints
      exact ⟨told, points, hsublist.cons _, hunwarned, hpoints, htells⟩
    · rw [hone, List.append_assoc] at hpoints
      exact ⟨_ :: told, p :: points, hsublist.cons_cons _, List.forall_mem_cons.mpr ⟨hquiet, hunwarned⟩, hpoints,
        .cons htold htells⟩

theorem risesTo_of_mem_scenesFrom (entries : List (String × Metric)) (c : Cycle) (s : Store) :
    ∀ x ∈ scenesFrom settings now c s entries, c.previous.RisesTo x.table := by
  induction entries generalizing c s with
  | nil => exact List.forall_mem_nil _
  | cons e rest ih =>
    obtain ⟨name, metric⟩ := e
    cases hvisit : (visit settings now c (name, metric) s).result with
    | error fault =>
      rw [scenesFrom_cons_of_error hvisit, List.forall_mem_singleton]
      exact .refl c.previous
    | ok c' =>
      rw [scenesFrom_cons_of_ok hvisit, List.forall_mem_cons]
      exact ⟨.refl c.previous, fun x hx => (risesTo_visit hvisit).trans (ih c' _ x hx)⟩

inductive Reaches (settings : CycleSettings) (entries : List (String × Metric)) :
    List Scene → Except Fault Cycle → Prop
  | all {encounters : List Scene} {cycle : Cycle} (reached : encounters.map (·.entry) = entries)
      (calm : ∀ x ∈ encounters, x.panic? settings = none) : Reaches settings entries encounters (.ok cycle)
  | upTo {before : List Scene} {x : Scene} {after : List (String × Metric)} {payload : Panic}
      (reached : (before ++ [x]).map (·.entry) ++ after = entries) (calm : ∀ y ∈ before, y.panic? settings = none)
      (panicked : x.panic? settings = some payload) : Reaches settings entries (before ++ [x]) (.error (.panic payload))

theorem Reaches.cons {entries : List (String × Metric)} {encounters : List Scene} {result : Except Fault Cycle}
    {x : Scene} (hx : x.panic? settings = none) (h : Reaches settings entries encounters result) :
    Reaches settings (x.entry :: entries) (x :: encounters) result := by
  cases h with
  | all hreached hcalm => exact .all (congrArg _ hreached) (List.forall_mem_cons.mpr ⟨hx, hcalm⟩)
  | upTo hreached hcalm hpanic =>
    have hall := congrArg (List.cons x.entry) hreached
    exact @Reaches.upTo _ _ (x :: _) _ _ _ hall (List.forall_mem_cons.mpr ⟨hx, hcalm⟩) hpanic

theorem Reaches.exists_append {entries : List (String × Metric)} {encounters : List Scene}
    {result : Except Fault Cycle} (h : Reaches settings entries encounters result) :
    ∃ after, encounters.map (·.entry) ++ after = entries := by
  cases h with
  | all hreached => exact ⟨[], (List.append_nil _).trans hreached⟩
  | upTo hreached => exact ⟨_, hreached⟩

theorem reaches_scenesFrom (entries : List (String × Metric)) (c : Cycle) (s : Store) :
    Reaches settings entries (scenesFrom settings now c s entries)
      (entries.foldlM (visit settings now) c s).result := by
  induction entries generalizing c s with
  | nil => exact .all rfl (List.forall_mem_nil _)
  | cons e rest ih =>
    obtain ⟨name, metric⟩ := e
    rw [List.foldlM_cons]
    cases hvisit : (visit settings now c (name, metric) s).result with
    | error fault =>
      obtain ⟨payload, hpanic, rfl⟩ := exists_panic_of_visit_error hvisit
      rw [scenesFrom_cons_of_error hvisit, Action.bind_of_error hvisit]
      exact @Reaches.upTo _ _ [] _ rest _ rfl (List.forall_mem_nil _) hpanic
    | ok c' =>
      let x : Scene := ⟨c.previous, s, name, metric⟩
      have hx : x.panic? settings = none := panic?_of_ok hvisit
      rw [scenesFrom_cons_of_ok hvisit, Action.bind_of_ok hvisit]
      exact .cons hx (ih c' _)

end Cycle

end MetricReporting
