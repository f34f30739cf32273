import MetricReporting.Proofs.CycleAccount
import MetricReporting.Proofs.NameMaps

namespace MetricReporting

namespace Units

theorem names_rateFields {units : Units} {metered : Metered} {s : Store} {rates : List (String × FieldValue)}
    (h : (units.rateFields metered s).result = .ok rates) :
    rates.map Prod.fst = ["m1_rate", "m5_rate", "m15_rate", "mean_rate"] := by
  obtain ⟨m1, -, h, -⟩ := Action.result_bind_eq_ok h
  obtain ⟨m5, -, h, -⟩ := Action.result_bind_eq_ok h
  obtain ⟨m15, -, h, -⟩ := Action.result_bind_eq_ok h
  obtain ⟨mean, -, h, -⟩ := Action.result_bind_eq_ok h
  rw [← Except.ok.inj h]
  rfl

theorem durationFields_eq (units : Units) (h : Histogram) :
    ∃ rest, units.durationFields h = ("count", .integer h.count) :: rest ∧
      rest.map Prod.fst = ["min", "max", "mean", "stddev", "p50", "p75", "p95", "p98", "p99", "p999"] :=
  ⟨_, rfl, rfl⟩

theorem get?_count_fields (units : Units) (x : Metric) (s : Store) (hx : x.kind.isMetered = true) {fields : Fields}
    (h : (units.fields x s).result = .ok fields) : fields.get? "count" = (x.count? s).map .integer := by
  obtain ⟨kind, handle⟩ := x
  cases kind with
  | gauge => cases hx
  | counter => cases hx
  | histogram => cases hx
  | meter =>
    obtain ⟨m, hheld, h, -⟩ := Action.result_bind_eq_ok h
    obtain ⟨rates, hrates, h, -⟩ := Action.result_bind_eq_ok h
    rw [← Except.ok.inj h, Metered.eq_of_hold hheld]
    exact NameMap.get?_ofList_cons _ _ rates (by rw [names_rateFields hrates]; decide)
  | timer =>
    obtain ⟨_, ⟨⟩, h, -⟩ := Action.result_bind_eq_ok h
    obtain ⟨rates, hrates, h, -⟩ := Action.result_bind_eq_ok h
    obtain ⟨rest, hrest, hnames⟩ := units.durationFields_eq (Timer.histogram (s.get handle))
    rw [← Except.ok.inj h, hrest]
    exact NameMap.get?_ofList_cons _ _ (rest ++ rates) (by rw [List.map_append, hnames, names_rateFields hrates]; decide)

end Units

theorem Snapshot.ne_of_split (snapshot : Snapshot) {name : String} {x : Metric}
    {before after : List (String × Metric)} (hunique : ∀ e ∈ snapshot.entries, e.1 = name → e.2 = x)
    (hsplit : snapshot.entries = before ++ (name, x) :: after) :
    (∀ e ∈ before, e.1 ≠ name) ∧ ∀ e ∈ after, e.1 ≠ name := by
  have hirrefl : ¬ Precedes (name, x) (name, x) := by
    rintro (hlt | ⟨-, hlt⟩)
    · exact Nat.lt_irrefl _ hlt
    · exact String.lt_irrefl _ hlt
  have hself : ∀ e ∈ snapshot.entries, e.1 = name → e = (name, x) :=
    fun e he hname => Prod.ext hname (hunique e he hname)
  have hordered := snapshot.pairwise_precedes
  rw [hsplit] at hself hordered
  obtain ⟨-, htail, hcross⟩ := List.pairwise_append.mp hordered
  constructor
  · intro e he hname
    have hprecedes := hcross e he (name, x) List.mem_cons_self
    rw [hself e (List.mem_append_left _ he) hname] at hprecedes
    exact hirrefl hprecedes
  · intro e he hname
    have hprecedes := (List.pairwise_cons.mp htail).1 e he
    rw [hself e (List.mem_append_right _ (List.mem_cons_of_mem _ he)) hname] at hprecedes
    exact hirrefl hprecedes

def tally (name : String) (points : List Point) : List (Option FieldValue) :=
  (points.filter fun p => p.measurement == name).map (·.field? "count")

theorem tally_append (name : String) (points points' : List Point) :
    tally name (points ++ points') = tally name points ++ tally name points' := by
  simp [tally]

namespace Cycle

theorem get?_judge_of_ne (settings : CycleSettings) (t : IdleTable) (s : Store) {name other : String}
    (metric : Metric) (hne : other ≠ name) : (judge settings t s other metric).2.get? name = t.get? name := by
  unfold judge
  split
  · rfl
  · exact t.get?_skip_of_ne _ _ hne

variable {settings : CycleSettings} {now : Instant} {c c' : Cycle} {name : String} {s : Store}

theorem visit_other {other : String} {metric : Metric} (hne : other ≠ name)
    (h : (visit settings now c (other, metric) s).result = .ok c') :
    c'.previous.get? name = c.previous.get? name ∧ tally name c'.points = tally name c.points := by
  have hjudge := get?_judge_of_ne settings c.previous s metric hne
  rcases visit_cases settings now c other metric s (panic?_of_ok h) with
    ⟨-, hvisit⟩ | ⟨-, -, hvisit⟩ | ⟨-, -, fields, -, hvisit⟩
  · rw [hvisit] at h
    cases h
    exact ⟨rfl, rfl⟩
  · rw [hvisit] at h
    cases h
    exact ⟨hjudge, rfl⟩
  · rw [hvisit] at h
    cases h
    refine ⟨hjudge, ?_⟩
    rw [tally_append]
    simp [tally, Point.observed, hne]

theorem visits_others (entries : List (String × Metric)) (hne : ∀ e ∈ entries, e.1 ≠ name)
    (h : (entries.foldlM (visit settings now) c s).result = .ok c') :
    c'.previous.get? name = c.previous.get? name ∧ tally name c'.points = tally name c.points := by
  induction entries generalizing c s with
  | nil =>
    cases h
    exact ⟨rfl, rfl⟩
  | cons e rest ih =>
    obtain ⟨he, hrest⟩ := List.forall_mem_cons.mp hne
    rw [List.foldlM_cons] at h
    obtain ⟨c₁, hvisit, hvisits, -⟩ := Action.result_bind_eq_ok h
    obtain ⟨htable, htally⟩ := visit_other he hvisit
    obtain ⟨htable', htally'⟩ := ih hrest hvisits
    exact ⟨htable'.trans htable, htally'.trans htally⟩

theorem get?_table_of_mem_scenesFrom {entries : List (String × Metric)} {x : Scene}
    (hnames : entries.Pairwise fun a b => a.1 ≠ b.1) (h : x ∈ scenesFrom settings now c s entries) :
    x.table.get? x.name = c.previous.get? x.name := by
  induction entries generalizing c s with
  | nil => cases h
  | cons e rest ih =>
    obtain ⟨name, metric⟩ := e
    obtain ⟨hfirst, hrest⟩ := List.pairwise_cons.mp hnames
    rw [scenesFrom, List.mem_cons] at h
    rcases h with rfl | h
    · rfl
    · split at h
      · rename_i hstep
        have hok : (visit settings now c (name, metric) s).result = .ok _ := congrArg Step.result hstep
        rw [ih hrest h]
        exact (visit_other (hfirst _ (entry_of_mem_scenesFrom h)) hok).1
      · cases h

variable {x : Metric} {count : Int64} (hskip : settings.skipIdle = true) (hx : x.kind.isMetered = true)
  (hfilter : ∀ store, settings.filter store name x ≠ .ok false)

include hskip hx hfilter

theorem visit_suppressed (hcount : x.count? s = some count)
    (hle : ∀ stored, c.previous.get? name = some stored → stored ≤ count)
    (h : (visit settings now c (name, x) s).result = .ok c') :
    c'.previous.get? name = some count ∧
      tally name c'.points =
        tally name c.points ++ if c.previous.get? name = some count then [] else [some (.integer count)] := by
  obtain ⟨hidle, hstored⟩ := c.previous.skip_of_le name count hle
  have hjudge := judge_of_count settings c.previous s name hx hcount
  rw [hskip] at hjudge
  rcases visit_cases settings now c name x s (panic?_of_ok h) with
    ⟨hrejected, -⟩ | ⟨-, hyes, hvisit⟩ | ⟨-, hno, fields, hfields, hvisit⟩
  · exact absurd hrejected (hfilter s)
  · rw [hvisit] at h
    cases h
    rw [hjudge] at hyes ⊢
    rw [if_pos (hidle.mp hyes), List.append_nil]
    exact ⟨hstored, rfl⟩
  · rw [hvisit] at h
    cases h
    rw [hjudge] at hno ⊢
    have hnew : c.previous.get? name ≠ some count := by
      intro hsame
      rw [hidle.mpr hsame] at hno
      cases hno
    have hfield := settings.units.get?_count_fields x s hx hfields
    rw [hcount] at hfield
    refine ⟨hstored, ?_⟩
    rw [if_neg hnew, tally_append]
    simp [tally, Point.observed, Point.field?, hfield]

theorem build_suppressed {snapshot : Snapshot} {t : IdleTable} (hmem : (name, x) ∈ snapshot.entries)
    (hunique : ∀ e ∈ snapshot.entries, e.1 = name → e.2 = x) (hcount : x.count? s = some count)
    (hle : ∀ stored, t.get? name = some stored → stored ≤ count)
    (h : (build snapshot settings t now s).result = .ok c') :
    c'.previous.get? name = some count ∧
      tally name c'.points = if t.get? name = some count then [] else [some (.integer count)] := by
  -- The visits before and after leave alone what is stored and reported under the name, and all counts.
  obtain ⟨before, after, hsplit⟩ := List.append_of_mem hmem
  obtain ⟨hbefore, hafter⟩ := snapshot.ne_of_split hunique hsplit
  rw [build, hsplit] at h
  obtain ⟨c₁, hvisits, hrest⟩ := Action.result_foldlM_append_eq_ok h
  rw [List.foldlM_cons] at hrest
  obtain ⟨c₂, hvisit, hvisits', -⟩ := Action.result_bind_eq_ok hrest
  obtain ⟨htable₁, htally₁⟩ := visits_others before hbefore hvisits
  have hcounts : s.SameCounts (before.foldlM (visit settings now) { previous := t } s).state :=
    Action.Keeps.foldlM before (keeps_visit settings now) _ s
  have hle₁ : ∀ stored, c₁.previous.get? name = some stored → stored ≤ count := by
    rw [htable₁]
    exact hle
  obtain ⟨htable₂, htally₂⟩ := visit_suppressed hskip hx hfilter ((hcounts.count x).trans hcount) hle₁ hvisit
  obtain ⟨htable₃, htally₃⟩ := visits_others after hafter hvisits'
  refine ⟨htable₃.trans htable₂, ?_⟩
  rw [htally₃, htally₂, htally₁, htable₁]
  rfl

end Cycle

end MetricReporting
