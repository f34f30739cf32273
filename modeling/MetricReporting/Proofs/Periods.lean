import MetricReporting.CommandLine.Course
import MetricReporting.Proofs.Resolution
import MetricReporting.Proofs.ScheduledReports

namespace MetricReporting

theorem eq_ok_of_mapError {ε ε' α : Type} {x : Except ε α} {f : ε → ε'} {a : α} (h : x.mapError f = .ok a) :
    x = .ok a := by
  cases x with
  | error e => cases h
  | ok b => exact congrArg Except.ok (Except.ok.inj h)

theorem Given.pos_of_period? [SpanWords] {text : String} {span : Span} (h : period? text = some span) :
    0 < span.nanos := by
  have hzero := (Option.filter_eq_some_iff.mp h).2
  simp only [Span.isZero, Bool.not_eq_true', beq_eq_false_iff_ne] at hzero
  omega

theorem Given.pos_period_getD [SpanWords] {otherwise : Span} (h : 0 < otherwise.nanos) (text? : Option String) :
    0 < ((text?.bind period?).getD otherwise).nanos := by
  cases hread : text?.bind period? with
  | none => exact h
  | some span =>
    obtain ⟨text, -, hspan⟩ := Option.bind_eq_some_iff.mp hread
    exact pos_of_period? hspan

namespace Config

/-- A configuration that is loaded or read from a single source, whatever arguments are then laid over it. -/
inductive IsObtained [SpanWords] [TomlFormat] : Config → Prop
  | load {s : Surroundings} {c : Config} (h : load s = .ok c) : IsObtained c
  | ofEnvironment {s : Surroundings} {c : Config} (h : ofEnvironment s = .ok c) : IsObtained c
  | ofFile {s : Surroundings} {path : String} {c : Config} (h : ofFile s path = .ok c) : IsObtained c
  | apply {a : CommandLine.RunArguments} {c c' : Config} (hc : IsObtained c) (h : a.apply c = .ok c') : IsObtained c'

def HasPeriod (c : Config) : Prop := 0 < c.period.nanos

theorem hasPeriod_default : ({} : Config).HasPeriod := by
  simp [HasPeriod, Span.ofSeconds]

variable [SpanWords]

theorem hasPeriod_overrides {c c' : Config} (hc : c.HasPeriod) {o : Overrides} {source : Source}
    (h : o.apply source c = .ok c') : c'.HasPeriod := by
  obtain ⟨-, rfl⟩ := (o.apply_gives source c c').mp h
  exact Given.pos_period_getD hc o.period

theorem hasPeriod_arguments {c c' : Config} (hc : c.HasPeriod) {a : CommandLine.RunArguments}
    (h : a.apply c = .ok c') : c'.HasPeriod := by
  obtain ⟨-, rfl⟩ := (a.apply_gives c c').mp h
  exact Given.pos_period_getD hc a.period

theorem hasPeriod_environment {c c' : Config} (hc : c.HasPeriod) {s : Surroundings}
    (h : ofEnvironment s c = .ok c') : c'.HasPeriod := by
  obtain ⟨-, rfl⟩ := (ofEnvironment_gives s c c').mp h
  exact Given.pos_period_getD hc _

theorem hasPeriod_file [TomlFormat] {c : Config} {s : Surroundings} {path : String} (h : ofFile s path = .ok c) :
    c.HasPeriod := by
  unfold ofFile at h
  cases hfile : fileOverrides s path with
  | error e =>
    rw [hfile] at h
    cases h
  | ok file =>
    rw [hfile] at h
    cases file with
    | none => cases h
    | some o => exact hasPeriod_overrides hasPeriod_default h

theorem hasPeriod_load [TomlFormat] {c : Config} {s : Surroundings} (h : load s = .ok c) : c.HasPeriod := by
  cases hfile : fileOverrides s (filePath s) with
  | error e =>
    unfold load at h
    rw [hfile] at h
    cases h
  | ok file =>
    obtain ⟨-, rfl⟩ := (load_gives hfile c).mp h
    apply Given.pos_period_getD
    exact Given.pos_period_getD hasPeriod_default _

theorem IsObtained.hasPeriod [TomlFormat] {c : Config} (h : c.IsObtained) : c.HasPeriod := by
  induction h with
  | load h => exact hasPeriod_load h
  | ofEnvironment h => exact hasPeriod_environment hasPeriod_default h
  | ofFile h => exact hasPeriod_file h
  | apply _ h ih => exact hasPeriod_arguments ih h

end Config

namespace CommandLine

theorem Invocation.isObtained_loaded [SpanWords] [TomlFormat] {i : Invocation} {s : Surroundings} {c : Config}
    (h : i.loaded s = .ok c) : c.IsObtained := by
  have hsource := eq_ok_of_mapError h
  cases hpath : i.configPath with
  | none =>
    rw [hpath] at hsource
    exact .load hsource
  | some path =>
    rw [hpath] at hsource
    exact .ofFile hsource

theorem Invocation.isObtained_config [SpanWords] [TomlFormat] {i : Invocation} {s : Surroundings} {c : Config}
    (h : i.config s = .ok c) : c.IsObtained := by
  unfold config at h
  cases hloaded : i.loaded s with
  | error e =>
    rw [hloaded] at h
    cases h
  | ok c' =>
    rw [hloaded] at h
    have hc := isObtained_loaded hloaded
    cases hcommand : i.command with
    | run a =>
      rw [hcommand] at h
      exact hc.apply h
    | showConfig =>
      rw [hcommand] at h
      cases h
      exact hc

theorem Course.of_serve [Globs] [SpanWords] [TomlFormat] [FloatFormat] {s : Surroundings} {arguments : List String}
    {runtime : Runtime} {service : Service} {cycles : Option Nat}
    (h : ofArguments s arguments runtime = .serve service cycles) :
    ∃ c : Config, c.IsObtained ∧ Service.start c runtime = .ok service := by
  unfold ofArguments at h
  split at h
  · unfold ofRefusal at h
    split at h <;> cases h
  · rename_i i _
    split at h
    · rename_i failed _
      cases failed <;> cases h
    · rename_i c hc
      refine ⟨c, Invocation.isObtained_config hc, ?_⟩
      unfold ofCommand at h
      split at h
      · cases h
      · split at h
        · rename_i started hstart
          cases h
          exact hstart
        · rename_i fault _
          cases fault <;> cases h

namespace Service

theorem ticker_steps (service : Service) (instants : List Nat) :
    (instants.foldl stepAt service).ticker = service.ticker := by
  induction instants generalizing service with
  | nil => rfl
  | cons now rest ih => exact ih (service.stepAt now)

variable [FloatFormat]

def planned (plan : ReporterPlan) (ticker : Ticker) : Service where
  traffic := ⟨⟨0⟩, ⟨0⟩, ⟨0⟩, ⟨0⟩, ⟨0⟩⟩
  station := ⟨{ sender := { tags := plan.tags }, settings := plan.settings }, (Traffic.install {}).state⟩
  ticker

theorem start_of_pos [Globs] {c : Config} (h : 0 < c.period.nanos) (runtime : Runtime) :
    start c runtime = ((ReporterPlan.ofConfig c).mapError Fault.failure >>= fun plan =>
      if runtime.isBeyondReach 0 c.period then .error (.panic beyondReach)
      else .ok (planned plan (.startedAt runtime 0 c.period.nanos h))) := by
  simp only [start, dif_neg (Nat.ne_of_gt h)]
  cases runtime.isBeyondReach 0 c.period <;> rfl

theorem start_eq_ok_iff [Globs] {c : Config} (h : 0 < c.period.nanos) (runtime : Runtime) (service : Service) :
    start c runtime = .ok service ↔
      ∃ plan, ReporterPlan.ofConfig c = .ok plan ∧ runtime.isBeyondReach 0 c.period = false ∧
        service = planned plan (.startedAt runtime 0 c.period.nanos h) := by
  rw [start_of_pos h]
  cases ReporterPlan.ofConfig c with
  | error cause => simp [Except.mapError, bind, Except.bind]
  | ok plan => cases runtime.isBeyondReach 0 c.period <;> simp [Except.mapError, bind, Except.bind, eq_comm]

theorem start_ne_zeroPeriod [Globs] {c : Config} (h : 0 < c.period.nanos) (runtime : Runtime) :
    start c runtime ≠ .error (.panic zeroPeriod) := by
  rw [start_of_pos h]
  cases ReporterPlan.ofConfig c with
  | error cause => exact nofun
  | ok plan =>
    cases runtime.isBeyondReach 0 c.period with
    | false => exact nofun
    | true => simp [Except.mapError, bind, Except.bind, beyondReach, zeroPeriod]

def through (service : Service) (rounds : List Round) : Service := rounds.foldl run service

theorem ticker_run (service : Service) (r : Round) : (service.run r).ticker = service.ticker.later 1 :=
  congrArg (·.later 1) (service.ticker_steps r.requests)

theorem ticker_through (service : Service) (rounds : List Round) :
    (service.through rounds).ticker = service.ticker.later rounds.length := by
  induction rounds generalizing service with
  | nil => exact (Ticker.later_zero service.ticker).symm
  | cons r rest ih =>
    rw [through, List.foldl_cons]
    exact (ih (service.run r)).trans (by rw [ticker_run, Ticker.later_later, Nat.add_comm, List.length_cons])

end Service

end CommandLine

namespace Config

open CommandLine

/-- Whatever a configuration is read from and whatever arguments are laid over it, its period is not zero. So a schedule
starts with it, and so does the ticker of a command line that runs the service. -/
theorem period_never_zero [Globs] [SpanWords] [TomlFormat] [FloatFormat] :
    (∀ c : Config, c.IsObtained → ∃ h : 0 < c.period.nanos, ∀ runtime : Runtime,
      (∀ (σ : Type) (station : Station σ) (now : Nat), (Schedule.start station c.period now runtime ()).result = .ok {
        station, now, ticker := some (.startedAt runtime now c.period.nanos h)
        crashed := runtime.isBeyondReach now c.period }) ∧
      Service.start c runtime ≠ .error (.panic Service.zeroPeriod)) ∧
    ∀ (s : Surroundings) (arguments : List String) (runtime : Runtime) (service : Service) (cycles : Option Nat),
      Course.ofArguments s arguments runtime = .serve service cycles →
        ∃ c : Config, c.IsObtained ∧ Service.start c runtime = .ok service ∧ ∃ h : 0 < c.period.nanos, ∀ rounds,
          (service.through rounds).ticker = (Ticker.startedAt runtime 0 c.period.nanos h).later rounds.length := by
  constructor
  · intro c hc
    refine ⟨hc.hasPeriod, ?_⟩
    intro runtime
    refine ⟨?_, Service.start_ne_zeroPeriod hc.hasPeriod runtime⟩
    intro σ station now
    exact Schedule.start_of_pos station now runtime hc.hasPeriod
  · intro s arguments runtime service cycles hcourse
    obtain ⟨c, hc, hstart⟩ := Course.of_serve hcourse
    obtain ⟨plan, -, -, rfl⟩ := (Service.start_eq_ok_iff hc.hasPeriod runtime service).mp hstart
    refine ⟨c, hc, hstart, hc.hasPeriod, ?_⟩
    intro rounds
    exact Service.ticker_through _ rounds

theorem period_never_zero_over_file_and_environment :
    let s : Surroundings :=
      { lookUp := fun name => if name = "METRICS_INFLUX_PERIOD" then some "1m" else none
        file := fun _ => .bytes "period = \"5s\"\n".toUTF8 }
    ∃ (c : Config) (service : Service) (h : 0 < (Span.ofMillis 250).nanos),
      Config.load s = .ok c ∧ c.period = .ofSeconds 60 ∧ 0 < c.period.nanos ∧
      Course.ofArguments s ["run", "--cycles", "3", "--period", "250ms"] = .serve service (some 3) ∧
      service.ticker = .startedAt .observed 0 (Span.ofMillis 250).nanos h ∧
      ∃ c' : Config, c'.IsObtained ∧ Service.start c' = .ok service ∧ ∃ h' : 0 < c'.period.nanos,
        (service.through [default, default]).ticker = (Ticker.startedAt .observed 0 c'.period.nanos h').later 2 := by
  intro s
  have hperiod : 0 < (Span.ofMillis 250).nanos := by decide
  have hload : Config.load s = .ok { period := .ofSeconds 60 } := by decide +kernel
  have hcourse : Course.ofArguments s ["run", "--cycles", "3", "--period", "250ms"] =
      .serve (Service.planned {} (.startedAt .observed 0 (Span.ofMillis 250).nanos hperiod)) (some 3) := by
    rfl
  obtain ⟨hobtained, hserve⟩ := period_never_zero
  obtain ⟨hpos, -⟩ := hobtained _ (.load hload)
  obtain ⟨c', hc', hstart, h', hticker⟩ := hserve s _ _ _ _ hcourse
  exact ⟨_, _, hperiod, hload, rfl, hpos, hcourse, rfl, c', hc', hstart, h', hticker [default, default]⟩

end Config

end MetricReporting
