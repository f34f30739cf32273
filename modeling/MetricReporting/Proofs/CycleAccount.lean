import Mathlib.Data.List.Forall2
import Mathlib.Tactic.MkIffOfInductiveProp
import MetricReporting.Proofs.Visits

namespace MetricReporting

def Snapshot.Precedes (a b : String × Metric) : Prop :=
  Kind.all.idxOf a.2.kind < Kind.all.idxOf b.2.kind ∨ a.2.kind = b.2.kind ∧ a.1 < b.1

def IdleTable.skipAll (suppress : Bool) : IdleTable → List (String × Int64) → List Bool × IdleTable
  | t, [] => ([], t)
  | t, (name, count) :: rest =>
    let last := skipAll suppress (t.skip name count suppress).2 rest
    ((t.skip name count suppress).1 :: last.1, last.2)

theorem IdleTable.length_skipAll (suppress : Bool) (t : IdleTable) (readings : List (String × Int64)) :
    (t.skipAll suppress readings).1.length = readings.length := by
  induction readings generalizing t with
  | nil => rfl
  | cons r rest ih => exact congrArg (· + 1) (ih _)

structure Scene where
  table : IdleTable
  store : Store
  name : String
  metric : Metric

namespace Scene

def entry (x : Scene) : String × Metric := (x.name, x.metric)

def panic? (settings : CycleSettings) (x : Scene) : Option Panic :=
  Cycle.panic? settings x.table x.store x.name x.metric

def IsCalm (settings : CycleSettings) (x : Scene) : Prop :=
  ∃ admitted, settings.filter x.store x.name x.metric = .ok admitted ∧
    (admitted = true → x.metric.kind = .gauge → x.metric.panic? x.store = none)

def isAdmitted (settings : CycleSettings) (x : Scene) : Bool :=
  match settings.filter x.store x.name x.metric with
  | .ok admitted => admitted
  | .error _ => false

def isRejected (settings : CycleSettings) (x : Scene) : Bool :=
  match settings.filter x.store x.name x.metric with
  | .ok admitted => !admitted
  | .error _ => false

theorem isAdmitted_of_ok {settings : CycleSettings} {x : Scene} {admitted : Bool}
    (h : settings.filter x.store x.name x.metric = .ok admitted) : x.isAdmitted settings = admitted := by
  rw [isAdmitted, h]

theorem isRejected_of_ok {settings : CycleSettings} {x : Scene} {admitted : Bool}
    (h : settings.filter x.store x.name x.metric = .ok admitted) : x.isRejected settings = !admitted := by
  rw [isRejected, h]

def isMetered (x : Scene) : Bool := x.metric.kind.isMetered

/-- A word holds what the metric has counted since its count was stored. A meter that is poisoned is in the way unless
it is that of a timer and the timer is left out: its count is the one of its durations. -/
@[mk_iff] structure IsReadable (settings : CycleSettings) (x : Scene) : Prop where
  fits : Cycle.outruns x.table x.store x.name x.metric = false
  sound : x.metric.isPoisoned x.store = true →
    x.metric.kind = .timer ∧ (Cycle.judge settings x.table x.store x.name x.metric).1 = true

def IsSafe (settings : CycleSettings) (x : Scene) : Prop :=
  x.IsCalm settings ∧ (x.isAdmitted settings = true → x.IsReadable settings)

theorem panic?_eq_none_iff (settings : CycleSettings) (x : Scene) : x.panic? settings = none ↔ x.IsSafe settings := by
  rw [IsSafe]
  cases hfilter : settings.filter x.store x.name x.metric with
  | error payload => simp [panic?, Cycle.panic?, IsCalm, hfilter]
  | ok admitted =>
    cases admitted with
    | false => simp [panic?, Cycle.panic?, IsCalm, isAdmitted, hfilter]
    | true =>
      -- A gauge is never left out, so what it is asked for does not depend on that.
      have hgauge (hkind : x.metric.kind = .gauge) :
          (Cycle.judge settings x.table x.store x.name x.metric).1 = false := by
        rw [Cycle.judge_of_plain settings x.table x.store x.name (by rw [hkind]; rfl)]
      have hpanic := Cycle.panic?_eq_none_iff_of_admitted (t := x.table) hfilter
      have hjudged := Cycle.judgePanic?_eq_none_iff x.table x.store x.name x.metric
      have hread := x.metric.panic?_eq_none_iff x.store
      simp only [panic?, IsCalm, isAdmitted_of_ok hfilter, hfilter, isReadable_iff, hpanic]
      grind

def reading (x : Scene) : String × Int64 := (x.name, (x.metric.count? x.store).getD 0)

structure Tells (settings : CycleSettings) (now : Instant) (x : Scene) (p : Point) : Prop where
  measurement : p.measurement = x.name
  tags : p.tags = none
  timestamp : p.timestamp = toString now.millis
  fields : (settings.units.fields x.metric x.store).result = .ok p.fields

end Scene

namespace Cycle

def scenesFrom (settings : CycleSettings) (now : Instant) : Cycle → Store → List (String × Metric) → List Scene
  | _, _, [] => []
  | c, s, (name, metric) :: rest =>
    ⟨c.previous, s, name, metric⟩ ::
      match visit settings now c (name, metric) s with
      | ⟨.ok c, s, _⟩ => scenesFrom settings now c s rest
      | ⟨.error _, _, _⟩ => []

def scenes (snapshot : Snapshot) (settings : CycleSettings) (previous : IdleTable) (now : Instant) (s : Store) :
    List Scene :=
  scenesFrom settings now { previous } s snapshot.entries

def metered (settings : CycleSettings) (scenes : List Scene) : List Scene :=
  scenes.filter fun x => x.isAdmitted settings && x.isMetered

def answers (settings : CycleSettings) (previous : IdleTable) (scenes : List Scene) : List Bool × IdleTable :=
  previous.skipAll settings.skipIdle ((metered settings scenes).map Scene.reading)

def reported (settings : CycleSettings) (previous : IdleTable) (scenes : List Scene) : List Scene :=
  scenes.filter (fun x => x.isAdmitted settings && !x.isMetered) ++
    (((metered settings scenes).zip (answers settings previous scenes).1).filter (fun x => !x.2)).map Prod.fst

structure Account (settings : CycleSettings) (previous : IdleTable) (now : Instant) (snapshot : Snapshot) (s : Store)
    (scenes : List Scene) (cycle : Cycle) : Prop where
  entries : scenes.map Scene.entry = snapshot.entries
  counts : ∀ x ∈ scenes, s.SameCounts x.store
  points : List.Forall₂ (Scene.Tells settings now) (reported settings previous scenes) cycle.points
  ordered : ((reported settings previous scenes).map Scene.entry).Pairwise Snapshot.Precedes
  filtered : cycle.filtered = scenes.countP (Scene.isRejected settings)
  skipped : cycle.skipped = (answers settings previous scenes).1.count true
  previous : cycle.previous = (answers settings previous scenes).2
  total : cycle.points.length + cycle.skipped + cycle.filtered = snapshot.size

theorem judge_of_metered (settings : CycleSettings) (t : IdleTable) (x : Scene) (h : x.isMetered = true) :
    judge settings t x.store x.name x.metric = t.skip x.reading.1 x.reading.2 settings.skipIdle := by
  obtain ⟨count, hcount⟩ := Metric.exists_count h x.store
  rw [judge_of_count settings t x.store x.name h hcount, Scene.reading, hcount]
  rfl

section

variable (settings : CycleSettings) (t : IdleTable) (x : Scene) (rest : List Scene)

theorem metered_cons_of_rejected (h : x.isAdmitted settings = false) :
    metered settings (x :: rest) = metered settings rest := by
  simp [metered, h]

theorem metered_cons_of_plain (h : x.isMetered = false) : metered settings (x :: rest) = metered settings rest := by
  simp [metered, h]

theorem metered_cons_of_metered (h : x.isAdmitted settings = true) (hm : x.isMetered = true) :
    metered settings (x :: rest) = x :: metered settings rest := by
  simp [metered, h, hm]

theorem reported_cons_of_rejected (h : x.isAdmitted settings = false) :
    reported settings t (x :: rest) = reported settings t rest := by
  simp [reported, answers, metered_cons_of_rejected, h]

theorem reported_cons_of_plain (h : x.isAdmitted settings = true) (hm : x.isMetered = false) :
    reported settings t (x :: rest) = x :: reported settings t rest := by
  simp [reported, answers, metered_cons_of_plain, h, hm]

theorem answers_cons_of_metered (h : x.isAdmitted settings = true) (hm : x.isMetered = true) :
    answers settings t (x :: rest) =
      ((t.skip x.reading.1 x.reading.2 settings.skipIdle).1 ::
        (answers settings (t.skip x.reading.1 x.reading.2 settings.skipIdle).2 rest).1,
        (answers settings (t.skip x.reading.1 x.reading.2 settings.skipIdle).2 rest).2) := by
  rw [answers, metered_cons_of_metered settings x rest h hm, List.map_cons]
  rfl

theorem reported_cons_of_metered (h : x.isAdmitted settings = true) (hm : x.isMetered = true)
    (hrest : ∀ y ∈ rest, y.isMetered = true) :
    reported settings t (x :: rest) =
      if (t.skip x.reading.1 x.reading.2 settings.skipIdle).1
      then reported settings (t.skip x.reading.1 x.reading.2 settings.skipIdle).2 rest
      else x :: reported settings (t.skip x.reading.1 x.reading.2 settings.skipIdle).2 rest := by
  have hplain : rest.filter (fun y => y.isAdmitted settings && !y.isMetered) = [] :=
    List.filter_eq_nil_iff.mpr (fun y hy => by simp [hrest y hy])
  cases hskip : (t.skip x.reading.1 x.reading.2 settings.skipIdle).1 with
  | true =>
    simp [reported, answers_cons_of_metered settings t x rest h hm, metered_cons_of_metered settings x rest h hm,
      hskip, hm, hplain]
  | false =>
    simp [reported, answers_cons_of_metered settings t x rest h hm, metered_cons_of_metered settings x rest h hm,
      hskip, hm, hplain]

end

structure AccountFrom (settings : CycleSettings) (now : Instant) (c : Cycle) (scenes : List Scene)
    (cycle : Cycle) : Prop where
  points : ∃ points, cycle.points = c.points ++ points ∧
    List.Forall₂ (Scene.Tells settings now) (reported settings c.previous scenes) points
  filtered : cycle.filtered = c.filtered + scenes.countP (Scene.isRejected settings)
  skipped : cycle.skipped = c.skipped + (answers settings c.previous scenes).1.count true
  previous : cycle.previous = (answers settings c.previous scenes).2
  total : cycle.points.length + cycle.skipped + cycle.filtered =
    c.points.length + c.skipped + c.filtered + scenes.length

namespace AccountFrom

variable {settings : CycleSettings} {now : Instant} {c cycle : Cycle} {x : Scene} {rest : List Scene}

theorem nil (settings : CycleSettings) (now : Instant) (c : Cycle) : AccountFrom settings now c [] c where
  points := ⟨[], (List.append_nil _).symm, .nil⟩
  filtered := rfl
  skipped := rfl
  previous := rfl
  total := rfl

theorem cons_of_rejected (h : settings.filter x.store x.name x.metric = .ok false)
    (hrest : AccountFrom settings now { c with filtered := c.filtered + 1 } rest cycle) :
    AccountFrom settings now c (x :: rest) cycle := by
  have hadmitted := Scene.isAdmitted_of_ok h
  have hrejected : x.isRejected settings = true := Scene.isRejected_of_ok h
  have hanswers : answers settings c.previous (x :: rest) = answers settings c.previous rest := by
    rw [answers, metered_cons_of_rejected settings x rest hadmitted, answers]
  constructor
  · rw [reported_cons_of_rejected settings c.previous x rest hadmitted]
    exact hrest.points
  · rw [hrest.filtered, List.countP_cons_of_pos hrejected, Nat.add_assoc, Nat.add_comm 1]
  · rw [hanswers]
    exact hrest.skipped
  · rw [hanswers]
    exact hrest.previous
  · have htotal := hrest.total
    dsimp only at htotal
    rw [List.length_cons]
    omega

theorem cons_of_plain {fields : Fields} (h : settings.filter x.store x.name x.metric = .ok true)
    (hm : x.isMetered = false) (hfields : (settings.units.fields x.metric x.store).result = .ok fields)
    (hrest : AccountFrom settings now { c with points := c.points ++ [.observed now x.name fields] } rest cycle) :
    AccountFrom settings now c (x :: rest) cycle := by
  have hadmitted := Scene.isAdmitted_of_ok h
  have hrejected : ¬ x.isRejected settings = true := by rw [Scene.isRejected_of_ok h]; decide
  have hanswers : answers settings c.previous (x :: rest) = answers settings c.previous rest := by
    rw [answers, metered_cons_of_plain settings x rest hm, answers]
  obtain ⟨points, hpoints, htells⟩ := hrest.points
  constructor
  · rw [reported_cons_of_plain settings c.previous x rest hadmitted hm]
    exact ⟨.observed now x.name fields :: points, by rw [hpoints, List.append_assoc]; rfl,
      .cons ⟨rfl, rfl, rfl, hfields⟩ htells⟩
  · rw [hrest.filtered, List.countP_cons_of_neg hrejected]
  · rw [hanswers]
    exact hrest.skipped
  · rw [hanswers]
    exact hrest.previous
  · have htotal := hrest.total
    simp only [List.length_append, List.length_singleton] at htotal
    rw [List.length_cons]
    omega

-- The kinds that are never idle are listed first among the reported, so none of them may come after a metered one.
variable (h : settings.filter x.store x.name x.metric = .ok true) (hm : x.isMetered = true)
  (hall : ∀ y ∈ rest, y.isMetered = true)

include h hm hall

theorem cons_of_idle (hskip : (c.previous.skip x.reading.1 x.reading.2 settings.skipIdle).1 = true)
    (hrest : AccountFrom settings now
      { c with
        previous := (c.previous.skip x.reading.1 x.reading.2 settings.skipIdle).2
        skipped := c.skipped + 1 } rest cycle) : AccountFrom settings now c (x :: rest) cycle := by
  have hadmitted := Scene.isAdmitted_of_ok h
  have hrejected : ¬ x.isRejected settings = true := by rw [Scene.isRejected_of_ok h]; decide
  constructor
  · rw [reported_cons_of_metered settings c.previous x rest hadmitted hm hall, if_pos hskip]
    exact hrest.points
  · rw [hrest.filtered, List.countP_cons_of_neg hrejected]
  · rw [answers_cons_of_metered settings c.previous x rest hadmitted hm, hskip, List.count_cons_self, hrest.skipped,
      Nat.add_assoc, Nat.add_comm 1]
  · rw [answers_cons_of_metered settings c.previous x rest hadmitted hm]
    exact hrest.previous
  · have htotal := hrest.total
    dsimp only at htotal
    rw [List.length_cons]
    omega

theorem cons_of_busy {fields : Fields}
    (hskip : (c.previous.skip x.reading.1 x.reading.2 settings.skipIdle).1 = false)
    (hfields : (settings.units.fields x.metric x.store).result = .ok fields)
    (hrest : AccountFrom settings now
      { c with
        points := c.points ++ [.observed now x.name fields]
        previous := (c.previous.skip x.reading.1 x.reading.2 settings.skipIdle).2 } rest cycle) :
    AccountFrom settings now c (x :: rest) cycle := by
  have hadmitted := Scene.isAdmitted_of_ok h
  have hrejected : ¬ x.isRejected settings = true := by rw [Scene.isRejected_of_ok h]; decide
  have hnew : ¬ (c.previous.skip x.reading.1 x.reading.2 settings.skipIdle).1 = true := by rw [hskip]; decide
  obtain ⟨points, hpoints, htells⟩ := hrest.points
  constructor
  · rw [reported_cons_of_metered settings c.previous x rest hadmitted hm hall, if_neg hnew]
    exact ⟨.observed now x.name fields :: points, by rw [hpoints, List.append_assoc]; rfl,
      .cons ⟨rfl, rfl, rfl, hfields⟩ htells⟩
  · rw [hrest.filtered, List.countP_cons_of_neg hrejected]
  · rw [answers_cons_of_metered settings c.previous x rest hadmitted hm, hskip, hrest.skipped,
      List.count_cons_of_ne (by decide)]
  · rw [answers_cons_of_metered settings c.previous x rest hadmitted hm]
    exact hrest.previous
  · have htotal := hrest.total
    simp only [List.length_append, List.length_singleton] at htotal
    rw [List.length_cons]
    omega

end AccountFrom

theorem scenesFrom_cons_of_ok {settings : CycleSettings} {now : Instant} {c c' : Cycle} {s : Store} {name : String}
    {metric : Metric} (h : (visit settings now c (name, metric) s).result = .ok c') (rest : List (String × Metric)) :
    scenesFrom settings now c s ((name, metric) :: rest) =
      ⟨c.previous, s, name, metric⟩ ::
        scenesFrom settings now c' (visit settings now c (name, metric) s).state rest := by
  rw [scenesFrom]
  cases hstep : visit settings now c (name, metric) s with
  | mk result state events =>
    rw [hstep] at h
    subst h
    rfl

theorem scenesFrom_cons_of_error {settings : CycleSettings} {now : Instant} {c : Cycle} {s : Store} {name : String}
    {metric : Metric} {fault : Fault} (h : (visit settings now c (name, metric) s).result = .error fault)
    (rest : List (String × Metric)) :
    scenesFrom settings now c s ((name, metric) :: rest) = [⟨c.previous, s, name, metric⟩] := by
  rw [scenesFrom]
  cases hstep : visit settings now c (name, metric) s with
  | mk result state events =>
    rw [hstep] at h
    subst h
    rfl

theorem isMetered_of_mem_scenesFrom {settings : CycleSettings} {now : Instant} {entries : List (String × Metric)}
    (h : ∀ e ∈ entries, e.2.kind.isMetered = true) (c : Cycle) (s : Store) :
    ∀ x ∈ scenesFrom settings now c s entries, x.isMetered = true := by
  induction entries generalizing c s with
  | nil => simp [scenesFrom]
  | cons e rest ih =>
    obtain ⟨name, metric⟩ := e
    obtain ⟨hfirst, hrest⟩ := List.forall_mem_cons.mp h
    intro x hx
    rw [scenesFrom, List.mem_cons] at hx
    rcases hx with rfl | hx
    · exact hfirst
    · split at hx
      · exact ih hrest _ _ x hx
      · cases hx

theorem keeps_of_mem_scenesFrom {R : Store → Store → Prop} [IsPreorder Store R] {settings : CycleSettings}
    {now : Instant} (hvisit : ∀ c e, Action.Keeps R (visit settings now c e)) (entries : List (String × Metric))
    (c : Cycle) (s : Store) : ∀ x ∈ scenesFrom settings now c s entries, R s x.store := by
  induction entries generalizing c s with
  | nil => simp [scenesFrom]
  | cons e rest ih =>
    obtain ⟨name, metric⟩ := e
    have hfirst := hvisit c (name, metric) s
    intro x hx
    rw [scenesFrom, List.mem_cons] at hx
    rcases hx with rfl | hx
    · exact Std.Refl.refl s
    · split at hx
      · rename_i hstep
        rw [hstep] at hfirst
        exact IsTrans.trans _ _ _ hfirst (ih _ _ x hx)
      · cases hx

theorem sameCounts_of_mem_scenesFrom (settings : CycleSettings) (now : Instant) (entries : List (String × Metric))
    (c : Cycle) (s : Store) : ∀ x ∈ scenesFrom settings now c s entries, s.SameCounts x.store :=
  keeps_of_mem_scenesFrom (keeps_visit settings now) entries c s

theorem entry_of_mem_scenesFrom {settings : CycleSettings} {now : Instant} {entries : List (String × Metric)} {c : Cycle}
    {s : Store} {x : Scene} (h : x ∈ scenesFrom settings now c s entries) : x.entry ∈ entries := by
  induction entries generalizing c s with
  | nil => cases h
  | cons e rest ih =>
    obtain ⟨name, metric⟩ := e
    rw [scenesFrom, List.mem_cons] at h
    rcases h with rfl | h
    · exact List.mem_cons_self
    · split at h
      · exact List.mem_cons_of_mem _ (ih h)
      · cases h

def MeteredLast (entries : List (String × Metric)) : Prop :=
  entries.Pairwise fun a b => a.2.kind.isMetered = true → b.2.kind.isMetered = true

theorem visit_account (settings : CycleSettings) (now : Instant) (c : Cycle) (x : Scene) (htable : x.table = c.previous)
    (calm : x.panic? settings = none) :
    ∃ c' s' events, visit settings now c x.entry x.store = ⟨.ok c', s', events⟩ ∧
      ∀ rest cycle, (x.isMetered = true → ∀ y ∈ rest, y.isMetered = true) →
        AccountFrom settings now c' rest cycle → AccountFrom settings now c (x :: rest) cycle := by
  rw [Scene.panic?, htable] at calm
  rcases visit_cases settings now c x.name x.metric x.store calm with
    ⟨hfilter, hvisit⟩ | ⟨hfilter, hidle, hvisit⟩ | ⟨hfilter, hbusy, fields, hfields, hvisit⟩
  · exact ⟨_, _, _, hvisit, fun rest cycle _ hrest => hrest.cons_of_rejected hfilter⟩
  · cases hm : x.isMetered with
    | false =>
      rw [judge_of_plain settings c.previous x.store x.name hm] at hidle
      cases hidle
    | true =>
      rw [judge_of_metered settings c.previous x hm] at hidle hvisit
      exact ⟨_, _, _, hvisit, fun rest cycle hall hrest => hrest.cons_of_idle hfilter hm (hall rfl) hidle⟩
  · cases hm : x.isMetered with
    | false =>
      rw [judge_of_plain settings c.previous x.store x.name hm] at hvisit
      exact ⟨_, _, _, hvisit, fun rest cycle _ hrest => hrest.cons_of_plain hfilter hm hfields⟩
    | true =>
      rw [judge_of_metered settings c.previous x hm] at hbusy hvisit
      exact ⟨_, _, _, hvisit, fun rest cycle hall hrest => hrest.cons_of_busy hfilter hm (hall rfl) hbusy hfields⟩

theorem exists_accountFrom (settings : CycleSettings) (now : Instant) (entries : List (String × Metric))
    (hlast : MeteredLast entries) (c : Cycle) (s : Store)
    (calm : ∀ x ∈ scenesFrom settings now c s entries, x.panic? settings = none) :
    ∃ cycle, (entries.foldlM (visit settings now) c s).result = .ok cycle ∧
      (scenesFrom settings now c s entries).map Scene.entry = entries ∧
      AccountFrom settings now c (scenesFrom settings now c s entries) cycle := by
  induction entries generalizing c s with
  | nil => exact ⟨c, rfl, rfl, .nil settings now c⟩
  | cons e rest ih =>
    obtain ⟨name, metric⟩ := e
    obtain ⟨hfirst, hlast⟩ := List.pairwise_cons.mp hlast
    have hcalm : Scene.panic? settings ⟨c.previous, s, name, metric⟩ = none :=
      calm _ (by rw [scenesFrom]; exact .head _)
    obtain ⟨c', s', events, hvisit, hcons⟩ := visit_account settings now c ⟨c.previous, s, name, metric⟩ rfl hcalm
    have hok : (visit settings now c (name, metric) s).result = .ok c' := congrArg Step.result hvisit
    have hstate : (visit settings now c (name, metric) s).state = s' := congrArg Step.state hvisit
    rw [scenesFrom_cons_of_ok hok, hstate] at calm ⊢
    obtain ⟨cycle, hrun, hentries, haccount⟩ := ih hlast c' s' (fun x hx => calm x (.tail _ hx))
    refine ⟨cycle, ?_, congrArg _ hentries, hcons _ cycle ?_ haccount⟩
    · rw [List.foldlM_cons, Action.bind_of_ok hok, hstate]
      exact hrun
    · intro hm
      exact isMetered_of_mem_scenesFrom (fun e he => hfirst e he hm) c' s'

end Cycle

namespace Snapshot

theorem pairwise_precedes (snapshot : Snapshot) : snapshot.entries.Pairwise Precedes := by
  rw [entries, List.pairwise_flatMap]
  constructor
  · intro kind _
    rw [List.pairwise_map]
    exact (snapshot.ofKind kind).ascending.imp (fun hlt => .inr ⟨rfl, hlt⟩)
  · have hkinds : Kind.all.Pairwise (fun k k' => Kind.all.idxOf k < Kind.all.idxOf k') := by decide
    refine hkinds.imp (fun hlt e he e' he' => .inl ?_)
    obtain ⟨_, _, rfl⟩ := List.mem_map.mp he
    obtain ⟨_, _, rfl⟩ := List.mem_map.mp he'
    exact hlt

theorem precedes_of_isMetered {a b : String × Metric} (ha : a.2.kind.isMetered = false)
    (hb : b.2.kind.isMetered = true) : Precedes a b := by
  have hkinds : ∀ k k' : Kind,
      k.isMetered = false → k'.isMetered = true → Kind.all.idxOf k < Kind.all.idxOf k' := by
    intro k k'
    cases k <;> cases k' <;> decide
  exact .inl (hkinds _ _ ha hb)

theorem isMetered_of_precedes {a b : String × Metric} (h : Precedes a b) (ha : a.2.kind.isMetered = true) :
    b.2.kind.isMetered = true := by
  have hkinds : ∀ k k' : Kind,
      Kind.all.idxOf k < Kind.all.idxOf k' → k.isMetered = true → k'.isMetered = true := by
    intro k k'
    cases k <;> cases k' <;> decide
  rcases h with hlt | ⟨hkind, _⟩
  · exact hkinds _ _ hlt ha
  · rw [← hkind]
    exact ha

end Snapshot

namespace Cycle

theorem sublist_metered (settings : CycleSettings) (t : IdleTable) (scenes : List Scene) :
    ((((metered settings scenes).zip (answers settings t scenes).1).filter (fun x => !x.2)).map Prod.fst).Sublist
      (metered settings scenes) := by
  have hlength : (answers settings t scenes).1.length = (metered settings scenes).length := by
    rw [answers, IdleTable.length_skipAll, List.length_map]
  refine (List.filter_sublist.map Prod.fst).trans ?_
  rw [List.map_fst_zip (Nat.le_of_eq hlength.symm)]

theorem pairwise_reported (settings : CycleSettings) (t : IdleTable) (scenes : List Scene)
    (h : (scenes.map Scene.entry).Pairwise Snapshot.Precedes) :
    ((reported settings t scenes).map Scene.entry).Pairwise Snapshot.Precedes := by
  rw [List.pairwise_map] at h ⊢
  rw [reported, List.pairwise_append]
  refine ⟨h.sublist List.filter_sublist, ?_, ?_⟩
  · exact (h.sublist List.filter_sublist).sublist (sublist_metered settings t scenes)
  · intro x hx y hy
    have hx' := (List.mem_filter.mp hx).2
    have hy' := (List.mem_filter.mp ((sublist_metered settings t scenes).subset hy)).2
    rw [Bool.and_eq_true] at hx' hy'
    exact Snapshot.precedes_of_isMetered (Bool.not_eq_true' _ ▸ hx'.2) hy'.2

theorem meteredLast_entries (snapshot : Snapshot) : MeteredLast snapshot.entries :=
  snapshot.pairwise_precedes.imp Snapshot.isMetered_of_precedes

theorem calm_of_ok {settings : CycleSettings} {now : Instant} {entries : List (String × Metric)} {c cycle : Cycle}
    {s : Store} (h : (entries.foldlM (visit settings now) c s).result = .ok cycle) :
    ∀ x ∈ scenesFrom settings now c s entries, x.panic? settings = none := by
  induction entries generalizing c s with
  | nil =>
    intro x hx
    cases hx
  | cons e rest ih =>
    obtain ⟨name, metric⟩ := e
    rw [List.foldlM_cons] at h
    obtain ⟨c', hvisit, hrest, -⟩ := Action.result_bind_eq_ok h
    rw [scenesFrom_cons_of_ok hvisit]
    exact List.forall_mem_cons.mpr ⟨panic?_of_ok hvisit, ih hrest⟩

section

variable {snapshot : Snapshot} {settings : CycleSettings} {previous : IdleTable} {now : Instant} {s : Store}

theorem exists_build_iff :
    (∃ cycle, (build snapshot settings previous now s).result = .ok cycle) ↔
      ∀ x ∈ scenes snapshot settings previous now s, x.IsSafe settings := by
  constructor
  · rintro ⟨cycle, h⟩ x hx
    exact (x.panic?_eq_none_iff settings).mp (calm_of_ok h x hx)
  · intro safe
    obtain ⟨cycle, hrun, -⟩ :=
      exists_accountFrom settings now snapshot.entries (meteredLast_entries snapshot) { previous } s
        fun x hx => (x.panic?_eq_none_iff settings).mpr (safe x hx)
    exact ⟨cycle, hrun⟩

theorem accountFrom_of_built {cycle : Cycle} (h : (build snapshot settings previous now s).result = .ok cycle) :
    (scenes snapshot settings previous now s).map Scene.entry = snapshot.entries ∧
      AccountFrom settings now { previous } (scenes snapshot settings previous now s) cycle := by
  obtain ⟨cycle', hrun, hentries, haccount⟩ :=
    exists_accountFrom settings now snapshot.entries (meteredLast_entries snapshot) _ s (calm_of_ok h)
  cases h.symm.trans hrun
  exact ⟨hentries, haccount⟩

theorem account_of_built {cycle : Cycle} (h : (build snapshot settings previous now s).result = .ok cycle) :
    Account settings previous now snapshot s (scenes snapshot settings previous now s) cycle := by
  obtain ⟨hentries, haccount⟩ := accountFrom_of_built h
  obtain ⟨points, hpoints, htells⟩ := haccount.points
  constructor
  · exact hentries
  · exact sameCounts_of_mem_scenesFrom settings now snapshot.entries { previous } s
  · rw [hpoints]
    exact htells
  · exact pairwise_reported settings previous _ (hentries.symm ▸ snapshot.pairwise_precedes)
  · rw [haccount.filtered, Nat.zero_add]
  · rw [haccount.skipped, Nat.zero_add]
  · exact haccount.previous
  · have hlength := congrArg List.length hentries
    rw [List.length_map, Snapshot.length_entries] at hlength
    rw [haccount.total, hlength]
    simp

end

/-- A cycle that comes to its end gives the account, and only panics keep it from that: the filter's and those of
gauges, and where a count cannot be read or a word does not hold the difference. -/
theorem builds_account (snapshot : Snapshot) (settings : CycleSettings) (previous : IdleTable) (now : Instant)
    (s : Store) :
    (∀ cycle, (build snapshot settings previous now s).result = .ok cycle →
      Account settings previous now snapshot s (scenes snapshot settings previous now s) cycle) ∧
    ((∃ cycle, (build snapshot settings previous now s).result = .ok cycle) ↔
      ∀ x ∈ scenes snapshot settings previous now s, x.IsSafe settings) :=
  ⟨fun _ => account_of_built, exists_build_iff⟩

theorem result_build_of_panic {snapshot : Snapshot} {settings : CycleSettings} {previous : IdleTable} {s : Store}
    {name : String} {metric : Metric} {payload : Panic} (hentries : snapshot.entries = [(name, metric)])
    (h : panic? settings previous s name metric = some payload) (now : Instant) :
    scenes snapshot settings previous now s = [⟨previous, s, name, metric⟩] ∧
      (build snapshot settings previous now s).result = .error (.panic payload) := by
  have hvisit : (visit settings now { previous } (name, metric) s).result = .error (.panic payload) :=
    result_visit_of_panic h
  constructor
  · rw [scenes, hentries, scenesFrom_cons_of_error hvisit]
  · rw [build, hentries, List.foldlM_cons, Action.bind_of_error hvisit]

theorem builds_nothing_past_words :
    let snapshot := Snapshot.insert {} "load" ⟨.meter, ⟨0⟩⟩
    let s : Store := { meters := #[{ Meter.startedAt 0 with count := Int64.maxValue }] }
    let previous : IdleTable := ⟨NameMap.empty.insert "load" Int64.minValue⟩
    (∀ x ∈ scenes snapshot {} previous (Instant.ofEpochNanos 0) s, x.IsCalm {}) ∧
      (build snapshot {} previous (Instant.ofEpochNanos 0) s).result = .error (.panic Word.subtractOverflow) := by
  intro snapshot s previous
  have hentries : snapshot.entries = [("load", ⟨.meter, ⟨0⟩⟩)] := by decide
  have hpanic : panic? {} previous s "load" ⟨.meter, ⟨0⟩⟩ = some Word.subtractOverflow := by decide
  obtain ⟨hscenes, hresult⟩ := result_build_of_panic hentries hpanic (Instant.ofEpochNanos 0)
  refine ⟨fun x hx => ?_, hresult⟩
  rw [hscenes, List.mem_singleton] at hx
  subst hx
  exact ⟨true, rfl, nofun⟩

end Cycle

end MetricReporting
