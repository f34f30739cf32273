import MetricReporting.Proofs.Objects
import MetricReporting.Registry

namespace MetricReporting

inductive Change
  | setClock (clock : Clock)
  | addProbe (probe : Probe)
  | setProbe (p : ProbeId) (probe : Probe)
  | create (kind : Kind) (object : kind.Object)
  | add (h : Handle .counter) (n : Int64)
  | subtract (h : Handle .counter) (n : Int64)
  | observe (h : Handle .histogram) (value : Int64)
  | mark (h : Handle .meter) (n : Int64)
  | record (h : Handle .timer) (span : Span)
  | ask (h : Handle .gauge)
  | readRate (metered : Metered) (horizon : Horizon)

namespace Change

def perform : Change → Action Store Unit
  | setClock clock => Action.modify fun s => { s with clock }
  | addProbe probe => Action.modify fun s => (s.addProbe probe).2
  | setProbe p probe => Action.modify fun s => s.setProbe p probe
  | create _ object => Action.modify fun s => (s.add object).2
  | add h n => Action.modify fun s => s.update h (fun c : Counter => c.add n)
  | subtract h n => Action.modify fun s => s.update h (fun c : Counter => c.subtract n)
  | observe h value => Action.modify fun s => s.update h (fun o : Histogram => o.update value)
  | mark h n => Metered.mark (.meter h) n
  | record h span => Timer.record h span
  | ask h => do let _ ← Gauge.read h
  | readRate metered horizon => do let _ ← metered.readRate horizon

def growth (x : Metric) : Change → Int64
  | add h n => if x = ⟨.counter, h⟩ then n else 0
  | subtract h n => if x = ⟨.counter, h⟩ then -n else 0
  | observe h _ => if x = ⟨.histogram, h⟩ then 1 else 0
  | mark h n => if x = ⟨.meter, h⟩ then n else 0
  | record h _ => if x = ⟨.timer, h⟩ then 1 else 0
  | _ => 0

theorem keeps_ask (h : Handle .gauge) : Action.Keeps Store.SameCounts (ask h).perform :=
  .bind (Gauge.keeps_read fun s => .setProbe s _ _) fun _ => .pure _

theorem keeps_readRate (metered : Metered) (horizon : Horizon) :
    Action.Keeps Store.SameCounts (readRate metered horizon).perform :=
  .bind (metered.catchesUp_sameCounts.keeps_readRate horizon) fun _ => .pure _

theorem count?_update {kind : Kind} (s : Store) (h : Handle kind) (f : kind.Object → kind.Object) (n : Int64)
    (x : Metric) (hx : x.IsIn s)
    (hf : kind.countOf (f (s.get h)) = (kind.countOf (s.get h)).map (· + n)) :
    x.count? (s.update h f) = (x.count? s).map (· + if x = ⟨kind, h⟩ then n else 0) := by
  rw [Store.update, Metric.count?_set s h _ x hx]
  by_cases hself : x = ⟨kind, h⟩
  · subst hself
    rw [if_pos rfl, if_pos rfl, hf, Metric.count?_eq]
  · rw [if_neg hself, if_neg hself]
    simp

theorem count?_of_sameCounts {s s' : Store} (h : s.SameCounts s') (x : Metric) :
    x.count? s' = (x.count? s).map (· + 0) := by
  rw [h.count]
  simp

theorem count?_perform (change : Change) (s : Store) (x : Metric) (hx : x.IsIn s) :
    x.count? (change.perform s).state = (x.count? s).map (· + change.growth x) := by
  cases change with
  | setClock clock => exact count?_of_sameCounts (.of_objects_eq (by funext kind; cases kind <;> rfl)) x
  | addProbe probe => exact count?_of_sameCounts (.of_objects_eq (by funext kind; cases kind <;> rfl)) x
  | setProbe p probe => exact count?_of_sameCounts (.setProbe s p probe) x
  | create kind object =>
    have hadd : x.count? (s.add object).2 = x.count? s := by
      rw [Metric.count?_eq, Metric.count?_eq, Store.get_add s object x.handle hx]
    refine hadd.trans ?_
    simp [growth]
  | add h n => exact count?_update s h _ n x hx rfl
  | subtract h n =>
    exact count?_update s h _ (-n) x hx (by simp [Kind.countOf, Counter.subtract, Int64.sub_eq_add_neg])
  | observe h value => exact count?_update s h _ 1 x hx (congrArg some (Histogram.count_update _ value))
  | mark h n =>
    rw [perform, Metered.state_mark]
    exact count?_update s h (fun m : Meter Float => m.mark s.now n) n x hx (congrArg some (Meter.count_mark _ s.now n))
  | record h span =>
    rw [perform, Timer.state_record]
    exact count?_update s h _ 1 x hx (congrArg some (Histogram.count_update _ _))
  | ask h => exact count?_of_sameCounts (keeps_ask h s) x
  | readRate metered horizon => exact count?_of_sameCounts (keeps_readRate metered horizon s) x

theorem size_objects_perform_le (change : Change) (s : Store) (kind : Kind) :
    (s.objects kind).size ≤ ((change.perform s).state.objects kind).size := by
  cases change with
  | setClock clock => cases kind <;> exact Nat.le_refl _
  | addProbe probe => cases kind <;> exact Nat.le_refl _
  | setProbe p probe => cases kind <;> exact Nat.le_refl _
  | create _ object => exact Store.size_objects_add_le s object kind
  | add h | subtract h | observe h => exact Nat.le_of_eq (Store.size_objects_set s h _ kind).symm
  | mark h n =>
    rw [perform, Metered.state_mark]
    exact Nat.le_of_eq (Store.size_objects_set s h _ kind).symm
  | record h span =>
    rw [perform, Timer.state_record]
    exact Nat.le_of_eq (Store.size_objects_set s h _ kind).symm
  | ask h => exact Nat.le_of_eq ((keeps_ask h s).size kind).symm
  | readRate metered horizon => exact Nat.le_of_eq ((keeps_readRate metered horizon s).size kind).symm

end Change

namespace Registry

def entered (i : Instruments) (name : String) (metric : Metric) : Instruments :=
  { i with registry := { i.registry with metrics := i.registry.metrics.insert name metric } }

variable (i : Instruments)

theorem checkName_ends (name : String) : ∃ result, (checkName name i).Ends result i := by
  unfold checkName
  split
  · exact ⟨_, rfl, rfl⟩
  · exact ⟨_, rfl, rfl⟩

theorem metricsByName_of_poisoned (h : i.registry.poisoned = true) :
    (metricsByName i).Ends (.error (.panic poison)) i := by
  refine .bind_ok ⟨rfl, rfl⟩ ?_
  rw [if_pos h]
  exact ⟨rfl, rfl⟩

theorem metricsByName_of_sound (h : i.registry.poisoned = false) :
    (metricsByName i).Ends (.ok i.registry.metrics) i := by
  refine .bind_ok ⟨rfl, rfl⟩ ?_
  rw [if_neg (by rw [h]; decide)]
  exact ⟨rfl, rfl⟩

theorem metricsByName_ends :
    ∃ result, (metricsByName i).Ends result i ∧ ∀ m, result = .ok m → m = i.registry.metrics := by
  cases h : i.registry.poisoned with
  | true => exact ⟨_, metricsByName_of_poisoned i h, fun m hm => by cases hm⟩
  | false => exact ⟨_, metricsByName_of_sound i h, fun m hm => (Except.ok.inj hm).symm⟩

theorem enter_ends (name : String) (metric : Metric) :
    (enter i.registry.metrics name metric i).Ends (.ok ()) (entered i name metric) :=
  .bind_ok ⟨rfl, rfl⟩ ⟨rfl, rfl⟩

theorem getOrCreate_cases (kind : Kind) (object : Store → kind.Object) (name : String) :
    (∃ result, (getOrCreate kind object name i).Ends result i) ∨
      i.registry.metrics.get? name = none ∧
        (getOrCreate kind object name i).Ends (.ok (i.store.add (object i.store)).1)
          (entered { i with store := (i.store.add (object i.store)).2 } name
            ⟨kind, (i.store.add (object i.store)).1⟩) := by
  obtain ⟨checked, hchecked⟩ := checkName_ends i name
  obtain ⟨result, hresult, hmetrics⟩ := metricsByName_ends i
  cases checked with
  | error fault => exact .inl ⟨_, .bind_error hchecked⟩
  | ok _ =>
    cases result with
    | error fault => exact .inl ⟨_, .bind_ok hchecked (.bind_error hresult)⟩
    | ok m =>
      cases hmetrics m rfl
      cases hfound : i.registry.metrics.get? name with
      | none =>
        refine .inr ⟨rfl, .bind_ok hchecked (.bind_ok hresult ?_)⟩
        rw [hfound]
        exact .bind_ok (.on ⟨rfl, rfl⟩) (.bind_ok (enter_ends _ _ _) ⟨rfl, rfl⟩)
      | some metric =>
        obtain ⟨found, h⟩ := metric
        by_cases hsame : found = kind
        · refine .inl ⟨.ok (hsame ▸ h), .bind_ok hchecked (.bind_ok hresult ?_)⟩
          rw [hfound]
          dsimp only
          rw [dif_pos hsame]
          exact ⟨rfl, rfl⟩
        · refine .inl ⟨.error (.failure (.kindMismatch name found kind)), .bind_ok hchecked (.bind_ok hresult ?_)⟩
          rw [hfound]
          dsimp only
          rw [dif_neg hsame]
          exact ⟨rfl, rfl⟩

theorem register_cases (name : String) (metric : Metric) :
    (∃ result, (register name metric i).Ends result i) ∨
      i.registry.metrics.get? name = none ∧ (register name metric i).Ends (.ok ()) (entered i name metric) := by
  obtain ⟨checked, hchecked⟩ := checkName_ends i name
  obtain ⟨result, hresult, hmetrics⟩ := metricsByName_ends i
  cases checked with
  | error fault => exact .inl ⟨_, .bind_error hchecked⟩
  | ok _ =>
    cases result with
    | error fault => exact .inl ⟨_, .bind_ok hchecked (.bind_error hresult)⟩
    | ok m =>
      cases hmetrics m rfl
      by_cases htaken : i.registry.metrics.contains name = true
      · refine .inl ⟨.error (.failure (.nameTaken name)), .bind_ok hchecked (.bind_ok hresult ?_)⟩
        rw [if_pos htaken]
        exact ⟨rfl, rfl⟩
      · refine .inr ⟨Option.not_isSome_iff_eq_none.mp htaken, .bind_ok hchecked (.bind_ok hresult ?_)⟩
        rw [if_neg htaken]
        exact enter_ends i name metric

theorem remove_cases (name : String) :
    (∃ result, (remove name i).Ends result i) ∨
      ∃ inUse, (remove name i).Ends (.ok inUse)
        { i with registry := { i.registry with metrics := i.registry.metrics.erase name } } := by
  obtain ⟨result, hresult, hmetrics⟩ := metricsByName_ends i
  cases result with
  | error fault => exact .inl ⟨_, .bind_error hresult⟩
  | ok m =>
    cases hmetrics m rfl
    exact .inr ⟨_, .bind_ok hresult (.bind_ok ⟨rfl, rfl⟩ ⟨rfl, rfl⟩)⟩

def admitted (filter : Filter) (i : Instruments) : Except Panic Snapshot :=
  i.registry.metrics.entries.foldlM
    (fun (s : Snapshot) e => do return if ← filter i.store e.1 e.2 then s.insert e.1 e.2 else s) {}

theorem select_of_admitted {filter : Filter} {snapshot : Snapshot} (hsound : i.registry.poisoned = false)
    (h : admitted filter i = .ok snapshot) : (select filter i).Ends (.ok snapshot) i := by
  refine .bind_ok (metricsByName_of_sound i hsound) (.bind_ok ⟨rfl, rfl⟩ ?_)
  unfold admitted at h
  rw [h]
  exact ⟨rfl, rfl⟩

theorem select_of_panic {filter : Filter} {payload : Panic} (hsound : i.registry.poisoned = false)
    (h : admitted filter i = .error payload) :
    (select filter i).Ends (.error (.panic payload)) { i with registry := { i.registry with poisoned := true } } := by
  refine .bind_ok (metricsByName_of_sound i hsound) (.bind_ok ⟨rfl, rfl⟩ ?_)
  unfold admitted at h
  rw [h]
  exact .bind_ok ⟨rfl, rfl⟩ ⟨rfl, rfl⟩

theorem select_cases (filter : Filter) :
    (∃ result, (select filter i).Ends result i) ∨
      ∃ payload, (select filter i).Ends (.error (.panic payload))
        { i with registry := { i.registry with poisoned := true } } := by
  cases hsound : i.registry.poisoned with
  | true => exact .inl ⟨_, .bind_error (metricsByName_of_poisoned i hsound)⟩
  | false =>
    cases hadmitted : admitted filter i with
    | error payload => exact .inr ⟨payload, select_of_panic i hsound hadmitted⟩
    | ok snapshot => exact .inl ⟨_, select_of_admitted i hsound hadmitted⟩

end Registry

inductive Operation
  | change (change : Change)
  | getOrCreate (kind : Kind) (object : Store → kind.Object) (name : String)
  | register (name : String) (metric : Metric)
  | remove (name : String)
  | select (filter : Filter)

namespace Operation

def perform : Operation → Action Instruments Unit
  | change c => Instruments.onStore c.perform
  | getOrCreate kind object name => do let _ ← Registry.getOrCreate kind object name
  | register name metric => Registry.register name metric
  | remove name => do let _ ← Registry.remove name
  | select filter => do let _ ← Registry.select filter

def growth (x : Metric) : Operation → Int64
  | change c => c.growth x
  | _ => 0

theorem state_perform_of_ends {α : Type} {action : Action Instruments α} {i i' : Instruments}
    {result : Except Fault α} (h : (action i).Ends result i') :
    ((do let _ ← action : Action Instruments Unit) i).state = i' := by
  cases result with
  | error fault => exact (Step.Ends.bind_error h).2
  | ok a => exact (Step.Ends.bind_ok h ⟨rfl, rfl⟩).2

theorem registered_entered {i : Instruments} {name other : String} {x metric : Metric}
    (h : i.registry.metrics.get? name = some x) (hfree : i.registry.metrics.get? other = none) :
    (Registry.entered i other metric).registry.metrics.get? name = some x := by
  have hne : other ≠ name := by
    intro heq
    rw [heq, h] at hfree
    cases hfree
  exact (NameMap.get?_insert_of_ne _ metric hne).trans h

theorem registered_perform (op : Operation) (i : Instruments) (name : String) (x : Metric)
    (h : i.registry.metrics.get? name = some x) (hne : op ≠ remove name) :
    (op.perform i).state.registry.metrics.get? name = some x := by
  cases op with
  | change c => exact h
  | getOrCreate kind object other =>
    rcases Registry.getOrCreate_cases i kind object other with ⟨result, hsame⟩ | ⟨hfree, hentered⟩
    · rw [perform, state_perform_of_ends hsame]
      exact h
    · rw [perform, state_perform_of_ends hentered]
      exact registered_entered h hfree
  | register other metric =>
    rcases Registry.register_cases i other metric with ⟨result, hsame⟩ | ⟨hfree, hentered⟩
    · rw [perform, hsame.2]
      exact h
    · rw [perform, hentered.2]
      exact registered_entered h hfree
  | remove other =>
    rcases Registry.remove_cases i other with ⟨result, hsame⟩ | ⟨inUse, herased⟩
    · rw [perform, state_perform_of_ends hsame]
      exact h
    · have hother : ¬ name = other := fun heq => hne (congrArg remove heq.symm)
      rw [perform, state_perform_of_ends herased]
      exact (NameMap.get?_erase _ _ _).trans ((if_neg hother).trans h)
  | select filter =>
    rcases Registry.select_cases i filter with ⟨result, hsame⟩ | ⟨payload, hpoisoned⟩
    · rw [perform, state_perform_of_ends hsame]
      exact h
    · rw [perform, state_perform_of_ends hpoisoned]
      exact h

theorem store_perform (op : Operation) (i : Instruments) :
    (op.perform i).state.store = i.store ∧ (∀ x, op.growth x = 0) ∨
      ∃ c : Change, (op.perform i).state.store = (c.perform i.store).state ∧ ∀ x, op.growth x = c.growth x := by
  cases op with
  | change c => exact .inr ⟨c, rfl, fun _ => rfl⟩
  | getOrCreate kind object name =>
    rcases Registry.getOrCreate_cases i kind object name with ⟨result, hsame⟩ | ⟨-, hentered⟩
    · rw [perform, state_perform_of_ends hsame]
      exact .inl ⟨rfl, fun _ => rfl⟩
    · rw [perform, state_perform_of_ends hentered]
      exact .inr ⟨.create kind (object i.store), rfl, fun _ => rfl⟩
  | register name metric =>
    rcases Registry.register_cases i name metric with ⟨result, hsame⟩ | ⟨-, hentered⟩
    · rw [perform, hsame.2]
      exact .inl ⟨rfl, fun _ => rfl⟩
    · rw [perform, hentered.2]
      exact .inl ⟨rfl, fun _ => rfl⟩
  | remove name =>
    rcases Registry.remove_cases i name with ⟨result, hsame⟩ | ⟨inUse, herased⟩
    · rw [perform, state_perform_of_ends hsame]
      exact .inl ⟨rfl, fun _ => rfl⟩
    · rw [perform, state_perform_of_ends herased]
      exact .inl ⟨rfl, fun _ => rfl⟩
  | select filter =>
    rcases Registry.select_cases i filter with ⟨result, hsame⟩ | ⟨payload, hpoisoned⟩
    · rw [perform, state_perform_of_ends hsame]
      exact .inl ⟨rfl, fun _ => rfl⟩
    · rw [perform, state_perform_of_ends hpoisoned]
      exact .inl ⟨rfl, fun _ => rfl⟩

theorem count?_perform (op : Operation) (i : Instruments) (x : Metric) (hx : x.IsIn i.store) :
    x.count? (op.perform i).state.store = (x.count? i.store).map (· + op.growth x) := by
  rcases store_perform op i with ⟨hstore, hgrowth⟩ | ⟨c, hstore, hgrowth⟩
  · rw [hstore, hgrowth]
    simp
  · rw [hstore, hgrowth]
    exact c.count?_perform i.store x hx

theorem isIn_perform (op : Operation) (i : Instruments) (x : Metric) (hx : x.IsIn i.store) :
    x.IsIn (op.perform i).state.store := by
  rcases store_perform op i with ⟨hstore, -⟩ | ⟨c, hstore, -⟩
  · rw [hstore]
    exact hx
  · rw [hstore]
    exact Nat.lt_of_lt_of_le hx (c.size_objects_perform_le i.store x.kind)

end Operation

end MetricReporting
