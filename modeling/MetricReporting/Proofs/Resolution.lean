import Mathlib.Data.List.ReduceOption
import MetricReporting.CommandLine.Settings

namespace MetricReporting

section GivesIff

variable {ε ε' α β : Type}

/-- A result is had exactly under a condition, and then there is no other. -/
def GivesIff (x : Except ε α) (p : Prop) (a : α) : Prop := ∀ b, x = .ok b ↔ p ∧ b = a

theorem GivesIff.of_ok {p : Prop} (hp : p) (a : α) : GivesIff (.ok a : Except ε α) p a := by
  intro b
  rw [Except.ok.injEq]
  constructor
  · rintro rfl
    exact ⟨hp, rfl⟩
  · rintro ⟨-, rfl⟩
    rfl

theorem GivesIff.of_error {p : Prop} (hp : ¬ p) (e : ε) (a : α) : GivesIff (.error e) p a := by
  intro b
  constructor
  · intro h
    cases h
  · rintro ⟨h, -⟩
    exact absurd h hp

theorem GivesIff.bind {x : Except ε α} {p q : Prop} {a : α} {f : α → Except ε β} {b : β} (hx : GivesIff x p a)
    (hf : GivesIff (f a) q b) : GivesIff (x >>= f) (p ∧ q) b := by
  intro b'
  constructor
  · intro h
    cases hresult : x with
    | error e =>
      rw [hresult] at h
      cases h
    | ok a' =>
      obtain ⟨hp, rfl⟩ := (hx a').mp hresult
      rw [hresult] at h
      obtain ⟨hq, rfl⟩ := (hf b').mp h
      exact ⟨⟨hp, hq⟩, rfl⟩
  · rintro ⟨⟨hp, hq⟩, rfl⟩
    rw [(hx a).mpr ⟨hp, rfl⟩]
    exact (hf b').mpr ⟨hq, rfl⟩

theorem GivesIff.mapError {x : Except ε α} {p : Prop} {a : α} (h : GivesIff x p a) (f : ε → ε') :
    GivesIff (x.mapError f) p a := by
  intro b
  rw [← h b]
  cases x <;> simp [Except.mapError]

theorem GivesIff.iff {x : Except ε α} {p q : Prop} {a : α} (h : GivesIff x p a) (hpq : p ↔ q) : GivesIff x q a := by
  intro b
  rw [h b, hpq]

theorem GivesIff.map {x : Except ε α} {p : Prop} {a : α} (h : GivesIff x p a) (f : α → β) :
    GivesIff (x.map f) p (f a) :=
  (h.bind (f := fun a => .ok (f a)) (.of_ok (p := True) trivial (f a))).iff (iff_of_eq (and_true p))

theorem GivesIff.eq_of {x : Except ε α} {p : Prop} {a a' : α} (h : GivesIff x p a) (ha : p → a = a') :
    GivesIff x p a' := by
  intro b
  rw [h b]
  constructor
  · rintro ⟨hp, rfl⟩
    exact ⟨hp, ha hp⟩
  · rintro ⟨hp, rfl⟩
    exact ⟨hp, (ha hp).symm⟩

theorem GivesIff.error_iff {x : Except ε α} {p : Prop} {a : α} (h : GivesIff x p a) : (∃ e, x = .error e) ↔ ¬ p := by
  cases x with
  | error e =>
    have hp : ¬ p := fun hp => nomatch (h a).mpr ⟨hp, rfl⟩
    simp [hp]
  | ok b => simp [((h b).mp rfl).1]

theorem GivesIff.of_toOption (x : Except ε α) (otherwise : α) :
    GivesIff x (x.toOption.isSome = true) (x.toOption.getD otherwise) := by
  cases x with
  | error e => exact .of_error nofun _ _
  | ok a => exact .of_ok rfl a

end GivesIff

inductive Given
  | tags (text : String)
  | unit (text : String)
  | period (text : String)
  | switch (text : String)

namespace Given

variable [SpanWords]

def tags? (text : String) : Option Tags := (Tags.parse text).toOption

def unit? (text : String) : Option TimeUnit := (TimeUnit.parse text).toOption

def period? (text : String) : Option Span := (SpanWords.parse text).toOption.filter (!·.isZero)

def IsReadable : Given → Prop
  | tags text => (tags? text).isSome = true
  | unit text => (unit? text).isSome = true
  | period text => (period? text).isSome = true
  | switch text => (Config.switch? text).isSome = true

instance : DecidablePred IsReadable
  | tags text => inferInstanceAs (Decidable ((tags? text).isSome = true))
  | unit text => inferInstanceAs (Decidable ((unit? text).isSome = true))
  | period text => inferInstanceAs (Decidable ((period? text).isSome = true))
  | switch text => inferInstanceAs (Decidable ((Config.switch? text).isSome = true))

theorem period?_of_ok {text : String} {span : Span} (h : SpanWords.parse text = .ok span) :
    period? text = if span.isZero then none else some span := by
  cases hzero : span.isZero <;> simp [period?, h, Except.toOption, Option.filter, hzero]

theorem period?_of_error {text : String} {flaw : Span.Flaw} (h : SpanWords.parse text = .error flaw) :
    period? text = none := by
  simp [period?, h, Except.toOption]

theorem gives_read_if_given {ε β : Type} {make : String → Given} {read? : String → Option β}
    {read : String → Except ε β} {otherwise : β}
    (hread : ∀ text, GivesIff (read text) (make text).IsReadable ((read? text).getD otherwise)) (text? : Option String) :
    GivesIff (match text? with | none => .ok otherwise | some text => read text)
      (∀ v ∈ (text?.map make).toList, v.IsReadable) ((text?.bind read?).getD otherwise) := by
  cases text? with
  | none => exact .of_ok nofun _
  | some text => exact (hread text).iff (by simp)

end Given

namespace TagSetting

def given? : TagSetting → Option Given
  | table _ => none
  | list text => some (.tags text)

def read? : TagSetting → Option Tags
  | table tags => some tags
  | list text => Given.tags? text

end TagSetting

def Overrides.applied [SpanWords] (o : Overrides) (c : Config) : Config where
  tags := (o.tags.bind TagSetting.read?).getD c.tags
  rateUnit := (o.rateUnit.bind Given.unit?).getD c.rateUnit
  durationUnit := (o.durationUnit.bind Given.unit?).getD c.durationUnit
  skipIdle := o.skipIdle.getD c.skipIdle
  period := (o.period.bind Given.period?).getD c.period
  included := o.included.getD c.included
  excluded := o.excluded.getD c.excluded

def Overrides.given (o : Overrides) : List Given :=
  (o.tags.bind TagSetting.given?).toList ++ (o.rateUnit.map Given.unit).toList ++
    (o.durationUnit.map Given.unit).toList ++ (o.period.map Given.period).toList

namespace Overrides

variable [SpanWords]

theorem unit_gives (text? : Option String) (otherwise : TimeUnit) (cause : String → Failure → Failure) :
    GivesIff (unit text? otherwise cause) (∀ v ∈ (text?.map Given.unit).toList, v.IsReadable)
      ((text?.bind Given.unit?).getD otherwise) :=
  Given.gives_read_if_given (fun text => (GivesIff.of_toOption (TimeUnit.parse text) otherwise).mapError _) text?

theorem tagsOver_gives (source : Source) (otherwise : Tags) (setting? : Option TagSetting) :
    GivesIff (tagsOver source otherwise setting?) (∀ v ∈ (setting?.bind TagSetting.given?).toList, v.IsReadable)
      ((setting?.bind TagSetting.read?).getD otherwise) := by
  rcases setting? with - | tags | text
  · exact .of_ok nofun _
  · exact .of_ok nofun _
  · have hread := (GivesIff.of_toOption (Tags.parse text) otherwise).mapError fun f =>
      Fault.failure (.badTags source text f)
    refine hread.iff ?_
    simp only [Option.bind_some, TagSetting.given?, Option.toList_some, List.forall_mem_singleton]
    exact Iff.rfl

theorem periodOver_gives (source : Source) (otherwise : Span) (text? : Option String) :
    GivesIff (periodOver source otherwise text?) (∀ v ∈ (text?.map Given.period).toList, v.IsReadable)
      ((text?.bind Given.period?).getD otherwise) := by
  refine Given.gives_read_if_given (fun text => ?_) text?
  cases hparse : SpanWords.parse text with
  | error flaw =>
    have hread : ¬ (Given.period text).IsReadable := by simp [Given.IsReadable, Given.period?_of_error hparse]
    cases flaw <;> simp only [Span.read, hparse] <;> exact .of_error hread _ _
  | ok span =>
    have hread := Given.period?_of_ok hparse
    simp only [Span.read, hparse, Given.IsReadable, hread, bind, Except.bind]
    cases span.isZero with
    | true => exact .of_error nofun _ _
    | false => exact .of_ok rfl span

theorem apply_gives (o : Overrides) (source : Source) (c : Config) :
    GivesIff (o.apply source c) (∀ v ∈ o.given, v.IsReadable) (o.applied c) := by
  have htags := tagsOver_gives source c.tags o.tags
  have hrate := unit_gives o.rateUnit c.rateUnit (.badRateUnit source)
  have hduration := unit_gives o.durationUnit c.durationUnit (.badDurationUnit source)
  have hperiod := periodOver_gives source c.period o.period
  refine (htags.bind (hrate.bind (hduration.bind (hperiod.bind (q := True) ?_)))).iff ?_
  · exact .of_ok trivial _
  · simp only [given, List.forall_mem_append, and_assoc, and_true]

end Overrides

namespace Config

def environmentSets (lookUp : String → Option String) : Overrides where
  tags := (lookUp "METRICS_INFLUX_TAGS").map .list
  rateUnit := lookUp "METRICS_INFLUX_RATE_UNIT"
  durationUnit := lookUp "METRICS_INFLUX_DURATION_UNIT"
  skipIdle := (lookUp "METRICS_INFLUX_SKIP_IDLE").bind switch?
  period := lookUp "METRICS_INFLUX_PERIOD"
  included := (lookUp "METRICS_INFLUX_INCLUDE").map Text.commaList
  excluded := (lookUp "METRICS_INFLUX_EXCLUDE").map Text.commaList

def environmentGiven (lookUp : String → Option String) : List Given :=
  ((lookUp "METRICS_INFLUX_SKIP_IDLE").map Given.switch).toList ++ (environmentSets lookUp).given

variable [SpanWords]

theorem skipVariable_gives (s : Surroundings) :
    GivesIff (skipVariable s) (∀ v ∈ ((s.lookUp "METRICS_INFLUX_SKIP_IDLE").map Given.switch).toList, v.IsReadable)
      ((s.lookUp "METRICS_INFLUX_SKIP_IDLE").bind switch?) := by
  unfold skipVariable
  cases s.lookUp "METRICS_INFLUX_SKIP_IDLE" with
  | none => exact .of_ok nofun _
  | some text =>
    simp only [Option.map_some, Option.toList_some, List.forall_mem_singleton, Given.IsReadable, Option.bind_some]
    cases switch? text with
    | none => exact .of_error nofun _ _
    | some b => exact .of_ok rfl (some b)

theorem ofEnvironment_gives (s : Surroundings) (c : Config) :
    GivesIff (ofEnvironment s c) (∀ v ∈ environmentGiven s.lookUp, v.IsReadable)
      ((environmentSets s.lookUp).applied c) := by
  have hsets := (skipVariable_gives s).bind (f := fun skipIdle => .ok { environmentSets s.lookUp with skipIdle })
    (.of_ok trivial _)
  refine (hsets.bind (Overrides.apply_gives _ .environment c)).iff ?_
  simp only [environmentGiven, List.forall_mem_append, and_true]
  exact Iff.rfl

theorem load_gives [TomlFormat] {s : Surroundings} {file : Option Overrides}
    (hfile : fileOverrides s (filePath s) = .ok file) :
    GivesIff (load s)
      ((∀ v ∈ (file.getD {}).given, v.IsReadable) ∧ ∀ v ∈ environmentGiven s.lookUp, v.IsReadable)
      ((environmentSets s.lookUp).applied ((file.getD {}).applied {})) := by
  have henvironment := ofEnvironment_gives s ((file.getD {}).applied {})
  unfold load
  rw [hfile]
  cases file with
  | none =>
    have hnothing : ∀ v ∈ ({} : Overrides).given, v.IsReadable := nofun
    exact (GivesIff.of_ok hnothing ({} : Config)).bind henvironment
  | some o => exact (o.apply_gives .file {}).bind henvironment

end Config

namespace CommandLine

namespace RunArguments

variable [SpanWords]

def given (a : RunArguments) : List Given :=
  (a.period.map Given.period).toList ++ a.tags.map Given.tags ++ (a.rateUnit.map Given.unit).toList ++
    (a.durationUnit.map Given.unit).toList

def applied (a : RunArguments) (c : Config) : Config where
  tags := (a.tags.filterMap Given.tags?).foldl NameMap.overlay c.tags
  rateUnit := (a.rateUnit.bind Given.unit?).getD c.rateUnit
  durationUnit := (a.durationUnit.bind Given.unit?).getD c.durationUnit
  skipIdle := a.skipIdle || c.skipIdle
  period := (a.period.bind Given.period?).getD c.period
  included := if a.included.isEmpty then c.included else a.included
  excluded := if a.excluded.isEmpty then c.excluded else a.excluded

theorem periodOver_gives (a : RunArguments) (otherwise : Span) :
    GivesIff (a.periodOver otherwise) (∀ v ∈ (a.period.map Given.period).toList, v.IsReadable)
      ((a.period.bind Given.period?).getD otherwise) := by
  refine Given.gives_read_if_given (fun text => ?_) a.period
  cases hparse : SpanWords.parse text with
  | error flaw =>
    have hread : ¬ (Given.period text).IsReadable := by simp [Given.IsReadable, Given.period?_of_error hparse]
    cases flaw <;> exact .of_error hread _ _
  | ok span =>
    have hread := Given.period?_of_ok hparse
    simp only [Given.IsReadable, hread]
    cases span.isZero with
    | true => exact .of_error nofun _ _
    | false => exact .of_ok rfl span

theorem tagsOver_gives (a : RunArguments) (tags : Tags) :
    GivesIff (a.tagsOver tags) (∀ v ∈ a.tags.map Given.tags, v.IsReadable)
      ((a.tags.filterMap Given.tags?).foldl NameMap.overlay tags) := by
  unfold tagsOver
  induction a.tags generalizing tags with
  | nil => exact .of_ok nofun _
  | cons text rest ih =>
    simp only [List.foldlM_cons, List.map_cons, List.forall_mem_cons, Given.IsReadable]
    cases hread : Tags.parse text with
    | error cause => exact .of_error (by simp [Given.tags?, hread, Except.toOption]) _ _
    | ok more =>
      have htags : Given.tags? text = some more := by simp [Given.tags?, hread, Except.toOption]
      rw [List.filterMap_cons_some htags, List.foldl_cons]
      refine (GivesIff.of_ok (p := True) trivial (tags.overlay more)).bind (ih (tags.overlay more)) |>.iff ?_
      simp [Given.IsReadable, htags]

theorem unitOver_gives (text? : Option String) (otherwise : TimeUnit) (flaw : String → Failure → Flaw) :
    GivesIff (unitOver text? otherwise flaw) (∀ v ∈ (text?.map Given.unit).toList, v.IsReadable)
      ((text?.bind Given.unit?).getD otherwise) :=
  Given.gives_read_if_given (fun text => (GivesIff.of_toOption (TimeUnit.parse text) otherwise).mapError _) text?

theorem apply_gives (a : RunArguments) (c : Config) :
    GivesIff (a.apply c) (∀ v ∈ a.given, v.IsReadable) (a.applied c) := by
  have hperiod := a.periodOver_gives c.period
  have htags := a.tagsOver_gives c.tags
  have hrate := unitOver_gives a.rateUnit c.rateUnit .badRateUnit
  have hduration := unitOver_gives a.durationUnit c.durationUnit .badDurationUnit
  refine (hperiod.bind (htags.bind (hrate.bind (hduration.bind (q := True) ?_)))).iff ?_
  · exact .of_ok trivial _
  · simp only [given, List.forall_mem_append, and_assoc, and_true]

end RunArguments

structure Sources where
  file : Option Overrides
  environment : String → Option String
  arguments : RunArguments

def latest {α : Type} (values : List (Option α)) : Option α := values.reduceOption.getLast?

namespace Sources

def fileSets (s : Sources) : Overrides := s.file.getD {}

def environmentSets (s : Sources) : Overrides := Config.environmentSets s.environment

def given (s : Sources) : List Given :=
  s.fileSets.given ++ Config.environmentGiven s.environment ++ s.arguments.given

/-- Of every setting what is set last, and the default where nothing is. Tags of the arguments are laid over those set
last, and the arguments can only switch the skipping of idle metrics on. -/
def resolved [SpanWords] (s : Sources) : Config where
  tags := (s.arguments.tags.filterMap Given.tags?).foldl NameMap.overlay
    (((latest [s.fileSets.tags, s.environmentSets.tags]).bind TagSetting.read?).getD .empty)
  rateUnit := ((latest [s.fileSets.rateUnit, s.environmentSets.rateUnit, s.arguments.rateUnit]).bind
    Given.unit?).getD .seconds
  durationUnit := ((latest [s.fileSets.durationUnit, s.environmentSets.durationUnit, s.arguments.durationUnit]).bind
    Given.unit?).getD .milliseconds
  skipIdle := s.arguments.skipIdle || (latest [s.fileSets.skipIdle, s.environmentSets.skipIdle]).getD false
  period := ((latest [s.fileSets.period, s.environmentSets.period, s.arguments.period]).bind
    Given.period?).getD (.ofSeconds 10)
  included := (latest [s.fileSets.included, s.environmentSets.included,
    some s.arguments.included |>.filter (!·.isEmpty)]).getD []
  excluded := (latest [s.fileSets.excluded, s.environmentSets.excluded,
    some s.arguments.excluded |>.filter (!·.isEmpty)]).getD []

end Sources

section latest

variable {α β : Type}

theorem latest_pair (first second : Option α) : latest [first, second] = second.or first := by
  cases first <;> cases second <;> rfl

theorem latest_triple (first second third : Option α) :
    latest [first, second, third] = third.or (second.or first) := by
  cases first <;> cases second <;> cases third <;> rfl

theorem getD_or (upper lower : Option α) (otherwise : α) :
    (upper.or lower).getD otherwise = upper.getD (lower.getD otherwise) := by
  cases upper <;> rfl

theorem getD_bind_or {read : α → Option β} {upper : Option α} (hupper : ∀ v ∈ upper, (read v).isSome = true)
    (lower : Option α) (otherwise : β) :
    ((upper.or lower).bind read).getD otherwise = (upper.bind read).getD ((lower.bind read).getD otherwise) := by
  cases upper with
  | none => simp
  | some v =>
    obtain ⟨b, hb⟩ := Option.isSome_iff_exists.mp (hupper v rfl)
    simp [hb]

end latest

section readable

theorem forall_mem_map_toList {α β : Type} {setting : Option α} {make : α → β} {p : β → Prop} :
    (∀ v ∈ (setting.map make).toList, p v) ↔ ∀ a ∈ setting, p (make a) := by
  cases setting <;> simp

theorem forall_tags_readable [SpanWords] {setting : Option TagSetting} :
    (∀ v ∈ (setting.bind TagSetting.given?).toList, v.IsReadable) ↔ ∀ t ∈ setting, t.read?.isSome = true := by
  rcases setting with - | tags | text <;> simp [TagSetting.given?, TagSetting.read?, Given.IsReadable]

end readable

namespace Sources

theorem getD_filter_some (globs otherwise : List String) :
    ((some globs).filter (!·.isEmpty)).getD otherwise = if globs.isEmpty then otherwise else globs := by
  cases globs <;> rfl

theorem applied_eq_resolved [SpanWords] (s : Sources) (h : ∀ v ∈ s.given, v.IsReadable) :
    s.arguments.applied (s.environmentSets.applied (s.fileSets.applied {})) = s.resolved := by
  simp only [given, Config.environmentGiven, Overrides.given, RunArguments.given, List.forall_mem_append,
    forall_mem_map_toList, forall_tags_readable] at h
  simp only [Given.IsReadable] at h
  obtain ⟨⟨-, -, ⟨⟨htags, hrate⟩, hduration⟩, hperiod⟩, ⟨⟨hargPeriod, -⟩, hargRate⟩, hargDuration⟩ := h
  simp only [RunArguments.applied, Overrides.applied, resolved, latest_pair, latest_triple, environmentSets]
  rw [getD_bind_or htags, getD_bind_or hargRate, getD_bind_or hrate, getD_bind_or hargDuration,
    getD_bind_or hduration, getD_bind_or hargPeriod, getD_bind_or hperiod]
  simp only [getD_or, getD_filter_some]

end Sources

namespace Invocation

/-- A run whose file, if there is one, is a document of settings has a configuration exactly if every value that is
given can be read, be it overridden or not. Then each setting is as the last source has it that sets it. -/
theorem config_resolves [SpanWords] [TomlFormat] (a : RunArguments) (s : Surroundings) {file : Option Overrides}
    (hfile : Config.fileOverrides s (Config.filePath s) = .ok file) :
    let sources : Sources := ⟨file, s.lookUp, a⟩
    (∀ c, config ⟨.run a, none⟩ s = .ok c ↔ (∀ v ∈ sources.given, v.IsReadable) ∧ c = sources.resolved) ∧
      ((∃ failed, config ⟨.run a, none⟩ s = .error failed) ↔ ∃ v ∈ sources.given, ¬ v.IsReadable) := by
  intro sources
  have hconfig : GivesIff (config ⟨.run a, none⟩ s) (∀ v ∈ sources.given, v.IsReadable) sources.resolved := by
    refine (((Config.load_gives hfile).mapError .ofFault).bind (a.apply_gives _)).iff ?_ |>.eq_of
      sources.applied_eq_resolved
    simp only [Sources.given, List.forall_mem_append]
    exact Iff.rfl
  refine ⟨hconfig, hconfig.error_iff.trans ?_⟩
  push Not
  exact Iff.rfl

theorem config_resolves_over_file_and_environment :
    let s : Surroundings :=
      { lookUp := fun name =>
          if name = "METRICS_INFLUX_TAGS" then some "host=b, zone=1"
          else if name = "METRICS_INFLUX_SKIP_IDLE" then some " On "
          else if name = "METRICS_INFLUX_PERIOD" then some "1m"
          else none
        file := fun _ =>
          .bytes "rate_unit = \"ms\"\nperiod = \"5s\"\ninclude = [\"a*\"]\ntags = \"host=a\"\n".toUTF8 }
    let bad : Surroundings := { s with file := fun _ => .bytes "rate_unit = \"weeks\"\n".toUTF8 }
    let a : RunArguments := { tags := ["zone=2", "room=3"], rateUnit := some "us", excluded := ["b*"] }
    config ⟨.run a, none⟩ s = .ok
        { rateUnit := .microseconds, skipIdle := true, period := .ofSeconds 60, included := ["a*"],
          excluded := ["b*"], tags := .ofList [("host", "b"), ("zone", "2"), ("room", "3")] } ∧
      ∃ failed, config ⟨.run a, none⟩ bad = .error failed := by
  intro s bad a
  have hfile : Config.fileOverrides s (Config.filePath s) = .ok (some
      { rateUnit := some "ms", period := some "5s", included := some ["a*"], tags := some (.list "host=a") }) := by
    decide +kernel
  have hbad : Config.fileOverrides bad (Config.filePath bad) = .ok (some { rateUnit := some "weeks" }) := by
    decide +kernel
  constructor
  · exact ((config_resolves a s hfile).1 _).mpr ⟨by decide +kernel, by decide +kernel⟩
  · exact (config_resolves a bad hbad).2.mpr (by decide +kernel)

end Invocation

end CommandLine
end MetricReporting
