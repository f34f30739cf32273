import MetricReporting.Proofs.Naming
import MetricReporting.Proofs.Poisoning
import MetricReporting.Proofs.Readings

namespace MetricReporting

namespace Kind

abbrev Content : Kind → Type
  | .gauge => Gauge
  | .counter => Counter
  | .histogram => Histogram
  | .meter => Int64
  | .timer => Histogram × Int64

abbrev Update : Kind → Type
  | .gauge => Empty
  | .counter => Int
  | .histogram => Int64
  | .meter => Int
  | .timer => Span

def content : (kind : Kind) → kind.Object → kind.Content
  | .gauge, o => o
  | .counter, o => o
  | .histogram, o => o
  | .meter, (m : Meter Float) => m.count
  | .timer, (t : Timer Float) => (t.histogram, t.meter.count)

def IsBlank : (kind : Kind) → kind.Content → Prop
  | .gauge, _ => True
  | .counter, (c : Counter) => c.count = 0
  | .histogram, (o : Histogram) => o = .empty
  | .meter, (count : Int64) => count = 0
  | .timer, (t : Histogram × Int64) => t = (.empty, 0)

def taking : (kind : Kind) → kind.Content → List kind.Update → kind.Content
  | .gauge, g, _ => g
  | .counter, (c : Counter), (amounts : List Int) => ⟨.ofInt (c.count.toInt + amounts.sum)⟩
  | .histogram, (o : Histogram), (values : List Int64) => values.foldl Histogram.update o
  | .meter, (count : Int64), (amounts : List Int) => .ofInt (count.toInt + amounts.sum)
  | .timer, (t : Histogram × Int64), (spans : List Span) =>
    ((spans.map Timer.sampleOf).foldl Histogram.update t.1, .ofInt (t.2.toInt + spans.length))

theorem content_caughtUp (now : Nat) (kind : Kind) (o : kind.Object) :
    kind.content (kind.caughtUp now o) = kind.content o := by
  cases kind with
  | gauge => rfl
  | counter => rfl
  | histogram => rfl
  | meter => exact Meter.count_tickUpTo _ now
  | timer => exact congrArg (Prod.mk _) (Meter.count_tickUpTo _ now)

theorem taking_nil (kind : Kind) (start : kind.Content) : kind.taking start [] = start := by
  cases kind with
  | gauge => rfl
  | counter => simp [taking]
  | histogram => rfl
  | meter => simp [taking]
  | timer => simp [taking]

theorem taking_append (kind : Kind) (start : kind.Content) (updates more : List kind.Update) :
    kind.taking start (updates ++ more) = kind.taking (kind.taking start updates) more := by
  cases kind with
  | gauge => rfl
  | counter => simp only [taking, List.sum_append, Int64.ofInt_add, Int64.ofInt_toInt, Int64.add_assoc]
  | histogram => exact List.foldl_append
  | meter => simp only [taking, List.sum_append, Int64.ofInt_add, Int64.ofInt_toInt, Int64.add_assoc]
  | timer =>
    simp only [taking, List.map_append, List.foldl_append, List.length_append, Int.natCast_add, Int64.ofInt_add,
      Int64.ofInt_toInt, Int64.add_assoc]

end Kind

def Metric.content (s : Store) (x : Metric) : x.kind.Content := x.kind.content (s.get x.handle)

namespace Store

def KeepsContent (s s' : Store) : Prop := ∀ x : Metric, x.IsIn s → x.IsIn s' ∧ x.content s' = x.content s

theorem KeepsContent.refl (s : Store) : s.KeepsContent s := fun _ hx => ⟨hx, rfl⟩

theorem SameReadings.keepsContent {s s' : Store} (h : s.SameReadings s') : s.KeepsContent s' := by
  intro x hx
  constructor
  · rw [Metric.IsIn, h.size]
    exact hx
  · have hobject := congrArg x.kind.content (h.object x.handle)
    rw [Kind.content_caughtUp, Kind.content_caughtUp] at hobject
    exact hobject

theorem keepsContent_add (s : Store) {kind : Kind} (object : kind.Object) : s.KeepsContent (s.add object).2 := by
  intro x hx
  have hsame := s.get_add object x.handle hx
  exact ⟨Nat.lt_of_lt_of_le hx (s.size_objects_add_le object x.kind), congrArg x.kind.content hsame⟩

theorem ne_added (s : Store) {kind : Kind} (object : kind.Object) (x : Metric) (hx : x.IsIn s) :
    x ≠ ⟨kind, (s.add object).1⟩ := by
  rintro rfl
  exact Nat.lt_irrefl _ hx

end Store

namespace Change

def update? : Change → Option ((x : Metric) × x.kind.Update)
  | add h n => some ⟨⟨.counter, h⟩, n.toInt⟩
  | subtract h n => some ⟨⟨.counter, h⟩, -n.toInt⟩
  | observe h value => some ⟨⟨.histogram, h⟩, value⟩
  | mark h n => some ⟨⟨.meter, h⟩, n.toInt⟩
  | record h span => some ⟨⟨.timer, h⟩, span⟩
  | _ => none

def updates (x : Metric) (c : Change) : List x.kind.Update :=
  match c.update? with
  | none => []
  | some ⟨y, update⟩ => if same : y = x then [same ▸ update] else []

variable {s s' : Store} {x : Metric} {c : Change}

theorem content_of_kept (hc : c.update? = none) (h : s.KeepsContent s') (hx : x.IsIn s) :
    x.content s' = x.kind.taking (x.content s) (c.updates x) := by
  simp only [updates, hc, Kind.taking_nil]
  exact (h x hx).2

theorem content_of_updated {kind : Kind} {h : Handle kind} {update : kind.Update}
    (hc : c.update? = some ⟨⟨kind, h⟩, update⟩) (f : kind.Object → kind.Object)
    (hf : ∀ o, kind.content (f o) = kind.taking (kind.content o) [update]) (hx : x.IsIn s) :
    x.content (s.update h f) = x.kind.taking (x.content s) (c.updates x) := by
  simp only [updates, hc]
  by_cases same : (⟨kind, h⟩ : Metric) = x
  · subst same
    rw [dif_pos rfl, Metric.content, Store.update, Store.get_set, if_pos ⟨rfl, hx⟩]
    exact hf _
  · rw [dif_neg same, Kind.taking_nil, Metric.content, Metric.content]
    obtain ⟨other, h'⟩ := x
    by_cases hkind : kind = other
    · subst hkind
      rw [Store.update, Store.get_set, if_neg (fun hself => same (congrArg _ hself.1.symm))]
    · rw [Store.update, Store.get_set_of_kind_ne s h _ h' hkind]

theorem content_perform (c : Change) (s : Store) (x : Metric) (hx : x.IsIn s) :
    x.content (c.perform s).state = x.kind.taking (x.content s) (c.updates x) := by
  cases c with
  | setClock clock =>
    refine content_of_kept rfl ?_ hx
    rintro ⟨kind, h⟩ hin
    cases kind <;> exact ⟨hin, rfl⟩
  | addProbe probe =>
    refine content_of_kept rfl ?_ hx
    rintro ⟨kind, h⟩ hin
    cases kind <;> exact ⟨hin, rfl⟩
  | setProbe p probe => exact content_of_kept rfl (Store.SameReadings.setProbe s p probe).keepsContent hx
  | create kind object => exact content_of_kept rfl (s.keepsContent_add object) hx
  | add h n =>
    refine content_of_updated rfl _ (fun c => ?_) hx
    simp [Kind.content, Kind.taking, Counter.add, Int64.ofInt_add]
  | subtract h n =>
    refine content_of_updated rfl _ (fun c => ?_) hx
    simp [Kind.content, Kind.taking, Counter.subtract, Int64.ofInt_add, Int64.ofInt_neg, Int64.sub_eq_add_neg]
  | observe h value => exact content_of_updated rfl _ (fun _ => rfl) hx
  | mark h n =>
    rw [show ((mark h n).perform s).state = _ from Metered.state_mark (.meter h) n s]
    refine @content_of_updated s x _ .meter h n.toInt rfl (fun m : Meter Float => m.mark s.now n) (fun m => ?_) hx
    simp [Kind.content, Kind.taking, Meter.count_mark, Int64.ofInt_add]
  | record h span =>
    rw [show ((record h span).perform s).state = _ from Timer.state_record h span s]
    refine content_of_updated rfl _ (fun t => ?_) hx
    simp [Kind.content, Kind.taking, Timer.update, Meter.count_mark, Int64.ofInt_add]
  | ask h =>
    have hreads := Action.state_map (Gauge.read h) (fun _ => ()) s
    refine content_of_kept rfl ?_ hx
    rw [show ((ask h).perform s).state = _ from hreads]
    exact ((Gauge.isReading_read h).keeps s).keepsContent
  | readRate metered horizon =>
    have hreads := Action.state_map (metered.readRate horizon) (fun _ => ()) s
    refine content_of_kept rfl ?_ hx
    rw [show ((readRate metered horizon).perform s).state = _ from hreads]
    exact ((metered.isReading_readRate horizon).keeps s).keepsContent

end Change

namespace Registry

theorem keepsContent_getOrCreate (kind : Kind) (object : Store → kind.Object) (name : String) (i : Instruments) :
    i.store.KeepsContent (getOrCreate kind object name i).state.store := by
  rcases getOrCreate_cases i kind object name with ⟨result, -, hsame⟩ | ⟨-, -, hentered⟩
  · rw [hsame]
    exact .refl _
  · rw [hentered]
    exact i.store.keepsContent_add (object i.store)

theorem store_select (filter : Filter) (i : Instruments) : (select filter i).state.store = i.store := by
  rcases select_cases i filter with ⟨result, -, hsame⟩ | ⟨payload, -, hpoisoned⟩
  · rw [hsame]
  · rw [hpoisoned]

theorem metrics_select (filter : Filter) (i : Instruments) :
    (select filter i).state.registry.metrics = i.registry.metrics := by
  rcases select_cases i filter with ⟨result, -, hsame⟩ | ⟨payload, -, hpoisoned⟩
  · rw [hsame]
  · rw [hpoisoned]

theorem state_metricsByName (i : Instruments) : (metricsByName i).state = i := by
  obtain ⟨result, ⟨-, hsame⟩, -⟩ := metricsByName_ends i
  exact hsame

namespace Request

def Names (r : Request) : Prop := r.names?.isSome = true ∨ ∃ name, r = remove name

theorem keepsContent_of_obtains {r : Request} {name : String} {kind : Kind} (h : r.obtains = some (name, kind))
    (i : Instruments) : i.store.KeepsContent (r.perform i).state.store := by
  obtain ⟨object, hperform⟩ := perform_of_obtains h
  rw [hperform, Action.state_map]
  exact keepsContent_getOrCreate kind object name i

theorem keepsContent_perform (r : Request) (i : Instruments) : i.store.KeepsContent (r.perform i).state.store := by
  have hkept {i' : Instruments} (h : i'.store = i.store) : i.store.KeepsContent i'.store := by
    rw [h]
    exact .refl _
  cases r with
  | counter name => exact keepsContent_of_obtains rfl i
  | histogram name => exact keepsContent_of_obtains rfl i
  | meter name => exact keepsContent_of_obtains rfl i
  | timer name => exact keepsContent_of_obtains rfl i
  | gauge name probe => exact keepsContent_of_obtains rfl i
  | register name metric =>
    have hstate := Action.state_map (Registry.register name metric) (fun _ => Reply.metric metric) i
    rw [show ((register name metric).perform i).state = _ from hstate]
    rcases register_cases i name metric with ⟨result, -, hsame⟩ | ⟨-, -, hentered⟩
    · exact hkept (by rw [hsame])
    · exact hkept (by rw [hentered]; rfl)
  | remove name =>
    rw [perform, Action.state_map]
    rcases remove_cases i name with ⟨result, -, hsame⟩ | ⟨inUse, -, herased⟩
    · exact hkept (by rw [hsame])
    · exact hkept (by rw [herased])
  | get name =>
    rw [perform, Action.state_map, Registry.get?, Action.state_map, state_metricsByName]
    exact .refl _
  | names =>
    rw [perform, Action.state_map, Registry.names, Action.state_map, state_metricsByName]
    exact .refl _
  | size =>
    rw [perform, Action.state_map, Registry.size, Action.state_map, state_metricsByName]
    exact .refl _
  | select admits =>
    rw [perform, Action.state_map]
    exact hkept (store_select _ i)

theorem metrics_perform {r : Request} (h : ¬ r.Names) (i : Instruments) :
    (r.perform i).state.registry.metrics = i.registry.metrics := by
  cases r with
  | counter | histogram | meter | timer | gauge | register => exact absurd (.inl rfl) h
  | remove name => exact absurd (.inr ⟨name, rfl⟩) h
  | get name => rw [perform, Action.state_map, Registry.get?, Action.state_map, state_metricsByName]
  | names => rw [perform, Action.state_map, Registry.names, Action.state_map, state_metricsByName]
  | size => rw [perform, Action.state_map, Registry.size, Action.state_map, state_metricsByName]
  | select admits => rw [perform, Action.state_map, metrics_select]

theorem makes_of_free {i : Instruments} (sound : i.registry.poisoned = false) {r : Request} {name : String}
    {kind : Kind} (h : r.obtains = some (name, kind)) (hvisible : ¬ Text.IsBlank name)
    (hfree : i.registry.metrics.get? name = none) :
    ∃ object : kind.Object, kind.IsBlank (kind.content object) ∧
      (r.perform i).Ends (.ok (.metric ⟨kind, (i.store.add object).1⟩))
        (entered { i with store := (i.store.add object).2 } name ⟨kind, (i.store.add object).1⟩) := by
  have hmade (object : Store → kind.Object) := getOrCreate_of_free object sound hvisible hfree
  cases r with
  | counter =>
    cases h
    exact ⟨_, rfl, .bind_ok (hmade _) ⟨rfl, rfl⟩⟩
  | histogram =>
    cases h
    exact ⟨_, rfl, .bind_ok (hmade _) ⟨rfl, rfl⟩⟩
  | meter =>
    cases h
    exact ⟨Meter.startedAt i.store.now, rfl, .bind_ok (hmade _) ⟨rfl, rfl⟩⟩
  | timer =>
    cases h
    exact ⟨Timer.startedAt i.store.now, rfl, .bind_ok (hmade _) ⟨rfl, rfl⟩⟩
  | gauge =>
    cases h
    exact ⟨_, trivial, .bind_ok (hmade _) ⟨rfl, rfl⟩⟩
  | register | remove | get | names | size | select => cases h

end Request

end Registry

namespace Reporter

variable {σ : Type} [Sender σ]

theorem sameReadings_of_ending {st st' : Station σ} {snapshot : Snapshot} {now : Instant} {outcome : Outcome}
    (h : Ending st snapshot now outcome st') : st.instruments.store.SameReadings st'.instruments.store := by
  have hbuilt : st.instruments.store.SameReadings (st.built snapshot now).state :=
    Cycle.keepsReadings_build snapshot st.reporter.settings st.reporter.previous now st.instruments.store
  cases h with
  | unflushed => exact .refl _
  | unbuilt | unappended | unasked | unwritten | nothing | written => exact hbuilt

theorem report_reads (st : Station σ) (snapshot : Snapshot) (now : Instant) :
    st.instruments.store.SameReadings (report snapshot now st).state.instruments.store ∧
      (report snapshot now st).state.instruments.registry = st.instruments.registry := by
  obtain ⟨outcome, st', ⟨-, rfl⟩, hending⟩ := exists_ending st snapshot now
  exact ⟨sameReadings_of_ending hending, registry_of_ending hending⟩

theorem reportInstruments_reads (st : Station σ) (now : Instant) :
    st.instruments.store.SameReadings (reportInstruments now st).state.instruments.store ∧
      (reportInstruments now st).state.instruments.registry = st.instruments.registry := by
  cases sound : st.instruments.registry.poisoned with
  | true =>
    rw [(reportInstruments_of_poisoned st now sound).2]
    exact ⟨.refl _, rfl⟩
  | false =>
    obtain ⟨snapshot, -, hreport⟩ := reportInstruments_of_sound st now sound
    rw [(hreport (.self _ rfl)).2]
    exact report_reads st snapshot now

end Reporter

/-- What is done with instruments: their metrics are updated and read, the registry is asked, and cycles are built and
reported, by any number of reporters. -/
inductive Usage : Type 1
  | change (c : Change)
  | call (r : Registry.Request)
  | select (filter : Filter)
  | build (snapshot : Snapshot) (settings : CycleSettings) (previous : IdleTable) (now : Instant)
  | report {σ : Type} [Sender σ] (reporter : Reporter σ) (snapshot : Snapshot) (now : Instant)
  | reportInstruments {σ : Type} [Sender σ] (reporter : Reporter σ) (now : Instant)

namespace Usage

def run (i : Instruments) : Usage → Instruments
  | change c => (Instruments.onStore c.perform i).state
  | call r => (r.perform i).state
  | select filter => (Registry.select filter i).state
  | build snapshot settings previous now =>
    (Instruments.onStore (Cycle.build snapshot settings previous now) i).state
  | report reporter snapshot now => (Reporter.report snapshot now ⟨reporter, i⟩).state.instruments
  | reportInstruments reporter now => (Reporter.reportInstruments now ⟨reporter, i⟩).state.instruments

def updates (x : Metric) : Usage → List x.kind.Update
  | change c => c.updates x
  | _ => []

def Names : Usage → Prop
  | call r => r.Names
  | _ => False

theorem content_of_kept {s s' : Store} {x : Metric} (h : s.KeepsContent s') (hx : x.IsIn s) :
    x.IsIn s' ∧ x.content s' = x.kind.taking (x.content s) [] := by
  rw [Kind.taking_nil]
  exact h x hx

theorem content_run (use : Usage) (i : Instruments) (x : Metric) (hx : x.IsIn i.store) :
    x.IsIn (use.run i).store ∧ x.content (use.run i).store = x.kind.taking (x.content i.store) (use.updates x) := by
  cases use with
  | change c =>
    exact ⟨Nat.lt_of_lt_of_le hx (c.size_objects_perform_le i.store x.kind), c.content_perform i.store x hx⟩
  | call r => exact content_of_kept (r.keepsContent_perform i) hx
  | select filter =>
    rw [run, Registry.store_select]
    exact content_of_kept (.refl _) hx
  | build snapshot settings previous now =>
    exact content_of_kept (Cycle.keepsReadings_build snapshot settings previous now i.store).keepsContent hx
  | report reporter snapshot now =>
    exact content_of_kept (Reporter.report_reads ⟨reporter, i⟩ snapshot now).1.keepsContent hx
  | reportInstruments reporter now =>
    exact content_of_kept (Reporter.reportInstruments_reads ⟨reporter, i⟩ now).1.keepsContent hx

theorem metrics_run {use : Usage} (h : ¬ use.Names) (i : Instruments) :
    (use.run i).registry.metrics = i.registry.metrics := by
  cases use with
  | change c => rfl
  | call r => exact Registry.Request.metrics_perform h i
  | select filter => exact Registry.metrics_select filter i
  | build snapshot settings previous now => rfl
  | report reporter snapshot now =>
    exact congrArg Registry.metrics (Reporter.report_reads ⟨reporter, i⟩ snapshot now).2
  | reportInstruments reporter now =>
    exact congrArg Registry.metrics (Reporter.reportInstruments_reads ⟨reporter, i⟩ now).2

end Usage

namespace Instruments

def after (i : Instruments) (uses : List Usage) : Instruments := uses.foldl Usage.run i

theorem content_after (i : Instruments) (uses : List Usage) (x : Metric) (hx : x.IsIn i.store) :
    x.IsIn (i.after uses).store ∧
      x.content (i.after uses).store = x.kind.taking (x.content i.store) (uses.flatMap (Usage.updates x)) := by
  induction uses generalizing i with
  | nil => exact ⟨hx, (x.kind.taking_nil _).symm⟩
  | cons use rest ih =>
    obtain ⟨hstill, hcontent⟩ := use.content_run i x hx
    obtain ⟨hlast, hrest⟩ := ih (use.run i) hstill
    refine ⟨hlast, ?_⟩
    rw [List.flatMap_cons, Kind.taking_append, ← hcontent]
    exact hrest

theorem metrics_after (i : Instruments) (uses : List Usage) (h : ∀ use ∈ uses, ¬ use.Names) :
    (i.after uses).registry.metrics = i.registry.metrics := by
  induction uses generalizing i with
  | nil => rfl
  | cons use rest ih =>
    obtain ⟨hfirst, hrest⟩ := List.forall_mem_cons.mp h
    exact (ih (use.run i) hrest).trans (Usage.metrics_run hfirst i)

structure Independent (i : Instruments) (uses : List Usage) : Prop where
  content (x : Metric) : x.IsIn i.store → x.IsIn (i.after uses).store ∧
    x.content (i.after uses).store = x.kind.taking (x.content i.store) (uses.flatMap (Usage.updates x))
  created (kind : Kind) (object : kind.Object) :
    let x : Metric := ⟨kind, (i.store.add object).1⟩
    let later := i.after (.change (.create kind object) :: uses)
    (∀ old : Metric, old.IsIn i.store → old ≠ x) ∧ x.IsIn later.store ∧
      x.content later.store = kind.taking (kind.content object) (uses.flatMap (Usage.updates x))
  registered (r : Registry.Request) (name : String) (kind : Kind) : i.registry.poisoned = false →
    r.obtains = some (name, kind) → ¬ Text.IsBlank name → i.registry.metrics.get? name = none →
    let later := i.after (.call r :: uses)
    ∃ (h : Handle kind) (start : kind.Content), (r.perform i).result = .ok (.metric ⟨kind, h⟩) ∧
      (r.perform i).state.registry.metrics.get? name = some ⟨kind, h⟩ ∧
      (∀ old : Metric, old.IsIn i.store → old ≠ ⟨kind, h⟩) ∧ kind.IsBlank start ∧ Metric.IsIn later.store ⟨kind, h⟩ ∧
      Metric.content later.store ⟨kind, h⟩ = kind.taking start (uses.flatMap (Usage.updates ⟨kind, h⟩))
  metrics : (∀ use ∈ uses, ¬ use.Names) → (i.after uses).registry.metrics = i.registry.metrics

theorem content_after_add (i : Instruments) (registry : Registry) (uses : List Usage) {kind : Kind}
    (object : kind.Object) :
    let x : Metric := ⟨kind, (i.store.add object).1⟩
    let later := Instruments.after { store := (i.store.add object).2, registry } uses
    (∀ old : Metric, old.IsIn i.store → old ≠ x) ∧ x.IsIn later.store ∧
      x.content later.store = kind.taking (kind.content object) (uses.flatMap (Usage.updates x)) := by
  intro x later
  obtain ⟨hin, hcontent⟩ := content_after { store := (i.store.add object).2, registry } uses x (i.store.isIn_add object)
  have hstart : x.content (i.store.add object).2 = kind.content object :=
    congrArg kind.content (i.store.get_add_self object)
  rw [hstart] at hcontent
  exact ⟨i.store.ne_added object, hin, hcontent⟩

/-- Each object holds what has been done to it, through whichever reference and under whichever name, and what is done
to others, to the registry or by reporters is nothing to it. A name that is given anew stands for another object. -/
theorem objects_are_independent (i : Instruments) (uses : List Usage) : i.Independent uses := by
  constructor
  · exact i.content_after uses
  · intro kind object
    exact i.content_after_add i.registry uses object
  · intro r name kind sound hobtains hvisible hfree later
    obtain ⟨object, hblank, hresult, hstate⟩ := Registry.Request.makes_of_free sound hobtains hvisible hfree
    have hlater : later = Instruments.after (r.perform i).state uses := rfl
    rw [hstate] at hlater
    let entered := Registry.entered { i with store := (i.store.add object).2 } name ⟨kind, (i.store.add object).1⟩
    obtain ⟨hnew, hin, hcontent⟩ := i.content_after_add entered.registry uses object
    refine ⟨_, kind.content object, hresult, ?_, hnew, hblank, ?_, ?_⟩
    · rw [hstate]
      exact NameMap.get?_insert_self _ _ _
    · rw [hlater]
      exact hin
    · rw [hlater]
      exact hcontent
  · exact i.metrics_after uses

theorem objects_are_independent_beside_alias_and_wild_gauge :
    let i : Instruments := {
      store := { probes := #[⟨fun _ => .panic .wordless, 0⟩], gauges := #[⟨⟨0⟩⟩], counters := #[{}] }
      registry := { metrics := NameMap.ofList [("hits", ⟨.counter, ⟨0⟩⟩), ("wild", ⟨.gauge, ⟨0⟩⟩)] } }
    let reporter : Reporter Sender.Memory := { sender := {} }
    let now := Instant.ofEpochNanos 0
    let before : List Usage := [
      .change (.add ⟨0⟩ 5), .call (.register "alias" ⟨.counter, ⟨0⟩⟩), .reportInstruments reporter now,
      .call (.remove "hits")]
    let later : List Usage := [.change (.subtract ⟨0⟩ 7), .change (.add ⟨1⟩ 2), .reportInstruments reporter now]
    let last := i.after (before ++ .call (.counter "hits") :: later)
    Metric.content last.store ⟨.counter, ⟨0⟩⟩ = (⟨-2⟩ : Counter) ∧
      Metric.content last.store ⟨.counter, ⟨1⟩⟩ = (⟨2⟩ : Counter) := by
  intro i reporter now before later last
  constructor
  · have hcontent := (objects_are_independent i (before ++ .call (.counter "hits") :: later)).content ⟨.counter, ⟨0⟩⟩
    exact (hcontent Nat.zero_lt_one).2.trans (by decide)
  · have hvisible : ¬ Text.IsBlank "hits" := fun hblank => absurd (hblank 'h' (by decide)) (by decide)
    obtain ⟨h, start, -, hnamed, -, hblank, -, hcontent⟩ :=
      (objects_are_independent (i.after before) later).registered (.counter "hits") "hits" .counter (by decide +kernel)
        rfl hvisible (by decide +kernel)
    have hanew : ((Registry.Request.counter "hits").perform (i.after before)).state.registry.metrics.get? "hits" =
        some ⟨.counter, ⟨1⟩⟩ := by
      decide +kernel
    have hhandle : (⟨.counter, ⟨1⟩⟩ : Metric) = ⟨.counter, h⟩ := Option.some.inj (hanew.symm.trans hnamed)
    cases hhandle
    have hstart : start = ⟨0⟩ := congrArg Counter.mk hblank
    rw [hstart] at hcontent
    rw [show last = (i.after before).after (.call (.counter "hits") :: later) from List.foldl_append]
    exact hcontent.trans (by decide)

end Instruments

end MetricReporting
