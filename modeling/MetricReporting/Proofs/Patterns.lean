import MetricReporting.Proofs.Narrowing
import MetricReporting.Report.Plan

namespace MetricReporting

def Globs.IsWellFormed [Globs] (text : String) : Prop := ∃ pattern, parse text = .ok pattern

def Globs.accepts [Globs] (text name : String) : Bool :=
  match parse text with
  | .ok pattern => covers pattern name
  | .error _ => false

def Config.rejects [Globs] (c : Config) (name : String) : Bool :=
  c.excluded.any (Globs.accepts · name) || !c.included.isEmpty && !c.included.any (Globs.accepts · name)

namespace NamePatterns

variable [Globs]

def Reads (texts : List String) (patterns : List Globs.Pattern) : Prop :=
  List.Forall₂ (fun text pattern => Globs.parse text = .ok pattern) texts patterns

theorem parseAll_cases (texts : List String) :
    (∃ patterns, parseAll texts = .ok patterns ∧ Reads texts patterns) ∨
      ∃ text ∈ texts, ∃ flaw, Globs.parse text = .error flaw ∧ parseAll texts = .error (.badPattern text flaw) := by
  induction texts with
  | nil => exact .inl ⟨[], rfl, .nil⟩
  | cons text rest ih =>
    cases hparse : Globs.parse text with
    | error flaw =>
      refine .inr ⟨text, List.mem_cons_self, flaw, hparse, ?_⟩
      rw [parseAll, List.mapM_cons, hparse]
      rfl
    | ok pattern =>
      rcases ih with ⟨patterns, hrest, hreads⟩ | ⟨bad, hbad, flaw, hflaw, hrest⟩
      · refine .inl ⟨pattern :: patterns, ?_, .cons hparse hreads⟩
        rw [parseAll] at hrest
        rw [parseAll, List.mapM_cons, hparse, hrest]
        rfl
      · refine .inr ⟨bad, List.mem_cons_of_mem _ hbad, flaw, hflaw, ?_⟩
        rw [parseAll] at hrest
        rw [parseAll, List.mapM_cons, hparse, hrest]
        rfl

namespace Reads

variable {texts : List String} {patterns : List Globs.Pattern}

theorem any_eq (h : Reads texts patterns) (name : String) :
    patterns.any (Globs.covers · name) = texts.any (Globs.accepts · name) := by
  induction h with
  | nil => rfl
  | cons hparse _ ih => rw [List.any_cons, List.any_cons, ih, Globs.accepts, hparse]

theorem isEmpty_eq (h : Reads texts patterns) : patterns.isEmpty = texts.isEmpty := by
  cases h with
  | nil => rfl
  | cons => rfl

theorem isWellFormed (h : Reads texts patterns) : ∀ text ∈ texts, Globs.IsWellFormed text := by
  induction h with
  | nil => exact List.forall_mem_nil _
  | cons hparse _ ih => exact List.forall_mem_cons.mpr ⟨⟨_, hparse⟩, ih⟩

end Reads

end NamePatterns

namespace ReporterPlan

variable [Globs]

theorem ofConfig_of_patterns {c : Config} {patterns : NamePatterns}
    (h : NamePatterns.parse c.included c.excluded = .ok patterns) :
    ofConfig c = .ok
      { tags := c.tags, settings := ⟨⟨c.rateUnit, c.durationUnit⟩, c.skipIdle, .ofNames patterns.admits⟩ } := by
  have hfilter : (if patterns.admitsAll then Filter.all else patterns.filter) = .ofNames patterns.admits := by
    cases hall : patterns.admitsAll with
    | false => rfl
    | true =>
      have hempty : patterns.included.isEmpty = true ∧ patterns.excluded = [] := by
        simpa [NamePatterns.admitsAll] using hall
      funext _ name _
      simp [Filter.all, Filter.ofNames, NamePatterns.admits, hempty]
  rw [ofConfig, h, ← hfilter]
  rfl

def planned (c : Config) : ReporterPlan where
  tags := c.tags
  settings := ⟨⟨c.rateUnit, c.durationUnit⟩, c.skipIdle, .ofNames fun name => !c.rejects name⟩

theorem ofConfig_cases (c : Config) :
    (ofConfig c = .ok (planned c) ∧ ∀ text ∈ c.included ++ c.excluded, Globs.IsWellFormed text) ∨
      ∃ text ∈ c.included ++ c.excluded, ∃ flaw,
        Globs.parse text = .error flaw ∧ ofConfig c = .error (.badPattern text flaw) := by
  -- Include patterns are read first, so the failure tells of one of them if any is malformed.
  rcases NamePatterns.parseAll_cases c.included with ⟨included, hincluded, hreads⟩ | ⟨text, htext, flaw, hflaw, herror⟩
  · rcases NamePatterns.parseAll_cases c.excluded with ⟨excluded, hexcluded, hreads'⟩ | ⟨text, htext, flaw, hflaw, herror⟩
    · left
      have hparse : NamePatterns.parse c.included c.excluded = .ok ⟨included, excluded⟩ := by
        rw [NamePatterns.parse, hincluded, hexcluded]
        rfl
      have hadmits : NamePatterns.admits ⟨included, excluded⟩ = fun name => !c.rejects name := by
        funext name
        rw [NamePatterns.admits, hreads.isEmpty_eq, hreads.any_eq, hreads'.any_eq, Config.rejects, Bool.not_or,
          Bool.not_and, Bool.not_not, Bool.not_not, Bool.and_comm]
      refine ⟨?_, ?_⟩
      · rw [ofConfig_of_patterns hparse, hadmits]
        rfl
      · intro text htext
        exact (List.mem_append.mp htext).elim (hreads.isWellFormed text) (hreads'.isWellFormed text)
    · refine .inr ⟨text, List.mem_append_right _ htext, flaw, hflaw, ?_⟩
      rw [ofConfig, NamePatterns.parse, hincluded, herror]
      rfl
  · refine .inr ⟨text, List.mem_append_left _ htext, flaw, hflaw, ?_⟩
    rw [ofConfig, NamePatterns.parse, herror]
    rfl

theorem ofConfig_eq_ok_iff (c : Config) (plan : ReporterPlan) :
    ofConfig c = .ok plan ↔ plan = planned c ∧ ∀ text ∈ c.included ++ c.excluded, Globs.IsWellFormed text := by
  rcases ofConfig_cases c with ⟨hok, hall⟩ | ⟨text, htext, flaw, hflaw, herror⟩
  · rw [hok]
    constructor
    · intro h
      exact ⟨(Except.ok.inj h).symm, hall⟩
    · rintro ⟨rfl, -⟩
      rfl
  · rw [herror]
    refine iff_of_false nofun ?_
    rintro ⟨-, hall⟩
    obtain ⟨pattern, hpattern⟩ := hall text htext
    cases hflaw.symm.trans hpattern

end ReporterPlan

def Snapshot.restrict (s : Snapshot) (admits : String → Bool) : Snapshot where
  gauges := s.gauges.filter fun name _ => admits name
  counters := s.counters.filter fun name _ => admits name
  histograms := s.histograms.filter fun name _ => admits name
  meters := s.meters.filter fun name _ => admits name
  timers := s.timers.filter fun name _ => admits name

theorem Snapshot.entries_restrict (s : Snapshot) (admits : String → Bool) :
    (s.restrict admits).entries = s.entries.filter fun e => admits e.1 := by
  simp only [entries, Kind.all, List.flatMap_cons, List.flatMap_nil, List.filter_append, List.filter_nil, List.filter_map]
  rfl

namespace Config

variable [Globs] {c : Config}

theorem rejects_iff (c : Config) (name : String) :
    c.rejects name = true ↔
      (∃ text ∈ c.excluded, Globs.accepts text name = true) ∨
        c.included ≠ [] ∧ ∀ text ∈ c.included, Globs.accepts text name = false := by
  simp [rejects]

theorem rejects_of_mem_iff {included excluded : List String} (hincluded : ∀ text, text ∈ included ↔ text ∈ c.included)
    (hexcluded : ∀ text, text ∈ excluded ↔ text ∈ c.excluded) (name : String) :
    rejects { c with included, excluded } name = c.rejects name := by
  rw [Bool.eq_iff_iff, rejects_iff, rejects_iff]
  simp only [ne_eq, List.eq_nil_iff_forall_not_mem, hincluded, hexcluded]

theorem rejects_of_excluded_subset {excluded : List String} (h : c.excluded ⊆ excluded) {name : String}
    (hrejects : c.rejects name = true) : rejects { c with excluded } name = true := by
  rw [rejects_iff] at hrejects ⊢
  rcases hrejects with ⟨text, htext, haccepts⟩ | hincluded
  · exact .inl ⟨text, h htext, haccepts⟩
  · exact .inr hincluded

theorem rejects_of_included_subset {included : List String} (hne : c.included ≠ []) (h : c.included ⊆ included)
    {name : String} (hrejects : rejects { c with included } name = true) : c.rejects name = true := by
  rw [rejects_iff] at hrejects ⊢
  rcases hrejects with hexcluded | ⟨-, hnone⟩
  · exact .inl hexcluded
  · exact .inr ⟨hne, fun text htext => hnone text (h htext)⟩

end Config

namespace ReporterPlan

section

variable [Globs]

/-- What the patterns of a configuration make of the plan. Rejected entries are counted and do nothing else to a cycle. -/
structure FollowsPatterns (plan : ReporterPlan) (c : Config) : Prop where
  decides (s : Store) (name : String) (x : Metric) : plan.settings.filter s name x = .ok (!c.rejects name)
  rejects (snapshot : Snapshot) : ∃ chosen : Snapshot,
    chosen.entries = snapshot.entries.filter (fun e => !c.rejects e.1) ∧
    ∀ previous now s, Cycle.build snapshot plan.settings previous now s =
      (Cycle.build chosen { plan.settings with filter := .all } previous now s).map
        (Cycle.withFiltered (snapshot.entries.countP fun e => c.rejects e.1))
  sets {included excluded : List String} : (∀ text, text ∈ included ↔ text ∈ c.included) →
    (∀ text, text ∈ excluded ↔ text ∈ c.excluded) → ofConfig { c with included, excluded } = .ok plan
  excluding {excluded : List String} : c.excluded ⊆ excluded → (∀ text ∈ excluded, Globs.IsWellFormed text) →
    ∃ narrower, ofConfig { c with excluded } = .ok narrower ∧ Cycle.ReportsNoMore narrower.settings plan.settings
  including {included : List String} : c.included ≠ [] → c.included ⊆ included →
    (∀ text ∈ included, Globs.IsWellFormed text) →
    ∃ wider, ofConfig { c with included } = .ok wider ∧ Cycle.ReportsNoMore plan.settings wider.settings

theorem reportsNoMore_of_rejects (c : Config) {included included' excluded excluded' : List String}
    (h : ∀ name, { c with included, excluded }.rejects name = true →
      { c with included := included', excluded := excluded' }.rejects name = true) :
    Cycle.ReportsNoMore (planned { c with included := included', excluded := excluded' }).settings
      (planned { c with included, excluded }).settings := by
  apply Cycle.reportsNoMore_of_names
  intro name hadmits
  rw [Bool.not_eq_true', Bool.eq_false_iff] at hadmits ⊢
  intro hrejects
  exact hadmits (h name hrejects)

theorem followsPatterns_planned {c : Config} (hall : ∀ text ∈ c.included ++ c.excluded, Globs.IsWellFormed text) :
    (planned c).FollowsPatterns c := by
  obtain ⟨hincluded, hexcluded⟩ := List.forall_mem_append.mp hall
  constructor
  · exact fun _ _ _ => rfl
  · intro snapshot
    have hchosen := snapshot.entries_restrict fun name => !c.rejects name
    have hrejected : snapshot.entries.countP (fun e => c.rejects e.1) =
        snapshot.entries.countP fun e => !(!c.rejects e.1) := by
      simp only [Bool.not_not]
    refine ⟨_, hchosen, ?_⟩
    intro previous now s
    exact @Cycle.build_of_filter (fun name _ => !c.rejects name) now _ _ _ hchosen hrejected _ _ previous s
  · intro included excluded hincluded' hexcluded'
    have hrejects := Config.rejects_of_mem_iff hincluded' hexcluded'
    rw [ofConfig_eq_ok_iff]
    constructor
    · simp only [planned, hrejects]
    · intro text htext
      rcases List.mem_append.mp htext with htext | htext
      · exact hincluded text ((hincluded' text).mp htext)
      · exact hexcluded text ((hexcluded' text).mp htext)
  · intro excluded hsubset hwell
    refine ⟨_, (ofConfig_eq_ok_iff _ _).mpr ⟨rfl, List.forall_mem_append.mpr ⟨hincluded, hwell⟩⟩, ?_⟩
    exact reportsNoMore_of_rejects c fun name hrejects => Config.rejects_of_excluded_subset hsubset hrejects
  · intro included hne hsubset hwell
    refine ⟨_, (ofConfig_eq_ok_iff _ _).mpr ⟨rfl, List.forall_mem_append.mpr ⟨hwell, hexcluded⟩⟩, ?_⟩
    exact reportsNoMore_of_rejects c fun name hrejects => Config.rejects_of_included_subset hne hsubset hrejects

/-- A configuration leads to a plan unless one of its patterns is malformed. A reporter of that plan rejects exactly the
metrics whose name an exclude pattern matches, or no include pattern if there are any. So the order of the patterns and
their repetition do not matter, more exclude patterns lead to no more points, and more include patterns, where there are
some, to no fewer. -/
theorem patterns_decide (c : Config) :
    ((∃ f, ofConfig c = .error f) ↔ ∃ text ∈ c.included ++ c.excluded, ¬ Globs.IsWellFormed text) ∧
    (∀ f, ofConfig c = .error f → f.category = .invalidArgument) ∧
    ∀ plan, ofConfig c = .ok plan → plan.FollowsPatterns c := by
  rcases ofConfig_cases c with ⟨hok, hall⟩ | ⟨text, htext, flaw, hflaw, herror⟩
  · rw [hok]
    refine ⟨iff_of_false (fun ⟨_, h⟩ => nomatch h) ?_, nofun, ?_⟩
    · rintro ⟨text, htext, hmalformed⟩
      exact hmalformed (hall text htext)
    · intro plan hplan
      rw [← Except.ok.inj hplan]
      exact followsPatterns_planned hall
  · rw [herror]
    refine ⟨iff_of_true ⟨_, rfl⟩ ⟨text, htext, ?_⟩, ?_, nofun⟩
    · rintro ⟨pattern, hpattern⟩
      cases hflaw.symm.trans hpattern
    · intro f hf
      rw [← Except.error.inj hf]
      rfl

end

theorem patterns_decide_beside_malformed_and_repeated_ones :
    let c : Config := { included := ["http.*", "jobs"], excluded := ["*.bytes"] }
    let s : Store := { counters := #[⟨3⟩], meters := #[Meter.startedAt 0] }
    let snapshot := Snapshot.insert {} "jobs" ⟨.counter, ⟨0⟩⟩ |>.insert "cpu" ⟨.counter, ⟨0⟩⟩
      |>.insert "http.hits" ⟨.counter, ⟨0⟩⟩ |>.insert "http.bytes" ⟨.meter, ⟨0⟩⟩
    (∃ plan, ofConfig c = .ok plan ∧ plan.FollowsPatterns c ∧
      (Cycle.build snapshot plan.settings {} (Instant.ofEpochNanos 0) s).result.toOption.map (fun cycle =>
        (cycle.points.map (·.measurement), cycle.filtered)) = some (["http.hits", "jobs"], 2) ∧
      ofConfig { c with included := ["jobs", "http.*", "jobs"] } = .ok plan ∧
      ∃ narrower, ofConfig { c with excluded := ["http.h?ts", "*.bytes"] } = .ok narrower ∧
        Cycle.ReportsNoMore narrower.settings plan.settings) ∧
    ∃ f, ofConfig { c with excluded := ["*.bytes", "[oops"] } = .error f ∧ f.category = .invalidArgument := by
  intro c s snapshot
  have hwell : ∀ text ∈ ["http.*", "jobs", "*.bytes"], Globs.IsWellFormed text :=
    List.forall_mem_cons.mpr ⟨⟨_, rfl⟩, List.forall_mem_cons.mpr ⟨⟨_, rfl⟩, List.forall_mem_singleton.mpr ⟨_, rfl⟩⟩⟩
  have hplan : ofConfig c = .ok (planned c) := (ofConfig_eq_ok_iff c _).mpr ⟨rfl, hwell⟩
  have hfollows : (planned c).FollowsPatterns c := (patterns_decide c).2.2 _ hplan
  refine ⟨⟨planned c, hplan, hfollows, by decide +kernel, ?_, ?_⟩, ?_⟩
  · apply hfollows.sets
    · intro text
      simp only [List.mem_cons, c]
      tauto
    · exact fun text => Iff.rfl
  · apply hfollows.excluding
    · exact List.subset_cons_self _ _
    · exact List.forall_mem_cons.mpr ⟨⟨_, rfl⟩, List.forall_mem_singleton.mpr ⟨_, rfl⟩⟩
  · obtain ⟨hfails, hcategory, -⟩ := patterns_decide { c with excluded := ["*.bytes", "[oops"] }
    have hmalformed : ¬ Globs.IsWellFormed "[oops" := nofun
    obtain ⟨f, hf⟩ := hfails.mpr ⟨"[oops", by decide, hmalformed⟩
    exact ⟨f, hf, hcategory f hf⟩

end ReporterPlan

end MetricReporting
