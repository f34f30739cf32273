import MetricReporting.Proofs.OneName
import MetricReporting.Proofs.Snapshots

namespace MetricReporting

def Filter.ofKinds (decides : String → Kind → Bool) : Filter := fun _ name metric => .ok (decides name metric.kind)

namespace Snapshot

theorem Precedes.asymm {a b : String × Metric} (h : Precedes a b) : ¬ Precedes b a := by
  rcases h with hlt | ⟨hkind, hlt⟩
  · rintro (hlt' | ⟨hkind', -⟩)
    · exact Nat.lt_asymm hlt hlt'
    · rw [hkind'] at hlt
      exact Nat.lt_irrefl _ hlt
  · rintro (hlt' | ⟨-, hlt'⟩)
    · rw [hkind] at hlt'
      exact Nat.lt_irrefl _ hlt'
    · exact String.lt_asymm hlt hlt'

theorem nodup_entries (s : Snapshot) : s.entries.Nodup := by
  apply s.pairwise_precedes.imp
  intro a b h heq
  subst heq
  exact h.asymm h

theorem pairwise_ne_of_registered (s : Snapshot) {metrics : NameMap Metric}
    (h : ∀ e ∈ s.entries, metrics.get? e.1 = some e.2) : s.entries.Pairwise fun a b => a.1 ≠ b.1 := by
  refine s.nodup_entries.imp_of_mem ?_
  intro a b ha hb hne hname
  have hmetric := h a ha
  rw [hname, h b hb] at hmetric
  exact hne (Prod.ext hname (Option.some.inj hmetric).symm)

theorem entries_eq_filter {chosen whole : Snapshot} (p : String × Metric → Bool)
    (h : ∀ e, e ∈ chosen.entries ↔ e ∈ whole.entries ∧ p e = true) : chosen.entries = whole.entries.filter p := by
  have hordered := whole.pairwise_precedes.sublist (List.filter_sublist (p := p))
  have hperm : chosen.entries.Perm (whole.entries.filter p) := by
    apply (List.perm_ext_iff_of_nodup chosen.nodup_entries (whole.nodup_entries.filter p)).mpr
    intro e
    rw [h, List.mem_filter]
  exact hperm.eq_of_pairwise (fun a b _ _ hab hba => absurd hba hab.asymm) chosen.pairwise_precedes hordered

end Snapshot

theorem NameMap.nodup_entries {α : Type} (m : NameMap α) : m.entries.Nodup := by
  apply m.ascending.imp
  intro a b hlt heq
  subst heq
  exact String.lt_irrefl _ hlt

namespace Registry

theorem select_ofKinds (i : Instruments) (sound : i.registry.poisoned = false) (decides : String → Kind → Bool) :
    ∃ chosen : Snapshot, (select (.ofKinds decides) i).Ends (.ok chosen) i ∧
      ∀ e, e ∈ chosen.entries ↔ i.registry.metrics.get? e.1 = some e.2 ∧ decides e.1 e.2.kind = true := by
  obtain ⟨chosen, hadmitted, hmem⟩ :=
    exists_admitted (.ofKinds decides) i (fun e => decides e.1 e.2.kind) (fun _ _ => rfl)
  exact ⟨chosen, select_of_admitted i sound hadmitted, hmem⟩

theorem size_of_snapshot {i : Instruments} {whole : Snapshot}
    (h : ∀ e, e ∈ whole.entries ↔ i.registry.metrics.get? e.1 = some e.2) : whole.size = i.registry.metrics.size := by
  have hperm : whole.entries.Perm i.registry.metrics.entries := by
    apply (List.perm_ext_iff_of_nodup whole.nodup_entries i.registry.metrics.nodup_entries).mpr
    intro e
    rw [h, NameMap.get?_eq_some_iff]
  rw [← whole.length_entries, hperm.length_eq, NameMap.size]

end Registry

namespace Cycle

def withFiltered (n : Nat) (c : Cycle) : Cycle := { c with filtered := n }

theorem visit_eq_of_admitted (settings : CycleSettings) (now : Instant) (c : Cycle) (name : String) (metric : Metric)
    (s : Store) (h : settings.filter s name metric = .ok true) :
    visit settings now c (name, metric) s =
      (do
        let (skip, c) ← c.suppress settings name metric
        if skip then return c
        return c.push (.observed now name (← settings.units.fields metric)) : Action Store Cycle) s := by
  simp [visit, Action.bind_apply, Action.get, h]

theorem suppress_withFiltered (settings : CycleSettings) (c : Cycle) (name : String) (metric : Metric) (n : Nat) :
    (c.withFiltered n).suppress settings name metric =
      Prod.map id (withFiltered n) <$> c.suppress settings name metric := by
  rw [suppress, suppress, map_bind]
  congr
  funext count?
  cases count? with
  | none =>
    rw [map_pure]
    rfl
  | some count =>
    rw [map_bind]
    simp only [map_pure]
    rfl

variable {settings : CycleSettings} {decides : String → Kind → Bool} (now : Instant)

theorem visit_ofKinds (hfilter : settings.filter = .ofKinds decides) (c : Cycle) (name : String) (metric : Metric)
    (n : Nat) :
    visit settings now (c.withFiltered n) (name, metric) =
      if decides name metric.kind then withFiltered n <$> visit { settings with filter := .all } now c (name, metric)
      else pure (c.withFiltered (n + 1)) := by
  funext s
  have hdecides : settings.filter s name metric = .ok (decides name metric.kind) := by
    rw [hfilter]
    rfl
  cases hadmits : decides name metric.kind with
  | false =>
    rw [hadmits] at hdecides
    exact visit_of_rejected hdecides
  | true =>
    rw [hadmits] at hdecides
    have hall : ({ settings with filter := .all } : CycleSettings).filter s name metric = .ok true := rfl
    have hsame : c.suppress { settings with filter := .all } name metric = c.suppress settings name metric := rfl
    rw [if_pos rfl, Action.map_apply, visit_eq_of_admitted _ _ _ _ _ _ hdecides, visit_eq_of_admitted _ _ _ _ _ _ hall,
      hsame, suppress_withFiltered, bind_map_left, ← Action.map_apply, map_bind]
    refine congrFun (congrArg (c.suppress settings name metric >>= ·) (funext ?_)) s
    rintro ⟨skip, c'⟩
    cases skip with
    | true => exact (map_pure _ _).symm
    | false =>
      refine Eq.trans ?_ (map_bind _ _ _).symm
      simp only [map_pure]
      rfl

theorem visits_of_filter (settings : CycleSettings) (hfilter : settings.filter = .ofKinds decides)
    (entries : List (String × Metric)) (c : Cycle) (n : Nat) :
    entries.foldlM (visit settings now) (c.withFiltered n) =
      withFiltered (n + entries.countP fun e => !decides e.1 e.2.kind) <$>
        (entries.filter fun e => decides e.1 e.2.kind).foldlM (visit { settings with filter := .all } now) c := by
  -- The two loops stay at cycles that differ in the number of the rejected alone.
  induction entries generalizing c n with
  | nil =>
    rw [List.filter_nil, List.foldlM_nil, List.foldlM_nil, map_pure]
    rfl
  | cons e rest ih =>
    obtain ⟨name, metric⟩ := e
    rw [List.foldlM_cons, visit_ofKinds now hfilter]
    cases hadmits : decides name metric.kind with
    | false =>
      rw [if_neg Bool.false_ne_true, pure_bind, ih, List.filter_cons_of_neg (by simp [hadmits]),
        List.countP_cons_of_pos (by simp [hadmits]), Nat.add_assoc, Nat.add_comm 1]
    | true =>
      rw [if_pos rfl, List.filter_cons_of_pos (by simp [hadmits]), List.countP_cons_of_neg (by simp [hadmits]),
        List.foldlM_cons, bind_map_left, map_bind]
      simp only [ih]

theorem filtered_of_visits (entries : List (String × Metric)) {c c' : Cycle} {s : Store}
    (hfilter : settings.filter = .all) (h : (entries.foldlM (visit settings now) c s).result = .ok c') :
    c'.filtered = c.filtered := by
  induction entries generalizing c s with
  | nil =>
    cases h
    rfl
  | cons e rest ih =>
    obtain ⟨name, metric⟩ := e
    rw [List.foldlM_cons] at h
    obtain ⟨c₁, hvisit, hrest, -⟩ := Action.result_bind_eq_ok h
    have hfirst : c₁.filtered = c.filtered := by
      rcases visit_cases settings now c name metric s (panic?_of_ok hvisit) with
        ⟨hrejected, -⟩ | ⟨-, -, heq⟩ | ⟨-, -, fields, -, heq⟩
      · rw [hfilter] at hrejected
        cases hrejected
      · rw [heq] at hvisit
        cases hvisit
        rfl
      · rw [heq] at hvisit
        cases hvisit
        rfl
    rw [ih hrest, hfirst]

theorem build_of_filter {chosen whole : Snapshot} {rejected : Nat}
    (hentries : chosen.entries = whole.entries.filter fun e => decides e.1 e.2.kind)
    (hrejected : rejected = whole.entries.countP fun e => !decides e.1 e.2.kind) (units : Units) (suppress : Bool)
    (previous : IdleTable) (s : Store) :
    build whole ⟨units, suppress, .ofKinds decides⟩ previous now s =
      (build chosen ⟨units, suppress, .all⟩ previous now s).map (withFiltered rejected) := by
  have hvisits := visits_of_filter now ⟨units, suppress, .ofKinds decides⟩ rfl whole.entries { previous } 0
  rw [← hentries, ← hrejected, Nat.zero_add] at hvisits
  exact (congrFun hvisits s).trans (Action.map_apply _ _ s)

/-- Selecting the metrics beforehand leads to the cycle to which rejecting them one by one leads: the same points, idle
table and events. If anything panics, both end with that. A poisoned registry gives neither snapshot. -/
theorem early_and_late_filters_agree (i : Instruments) (decides : String → Kind → Bool) (units : Units)
    (suppress : Bool) (previous : IdleTable) (now : Instant) :
    (i.registry.poisoned = true ∧ (Registry.select (.ofKinds decides) i).Ends (.error (.panic Registry.poison)) i ∧
      (Registry.snapshot i).Ends (.error (.panic Registry.poison)) i) ∨
    ∃ (chosen whole : Snapshot) (rejected : Nat),
      (Registry.select (.ofKinds decides) i).Ends (.ok chosen) i ∧ (Registry.snapshot i).Ends (.ok whole) i ∧
      (Registry.size i).Ends (.ok (chosen.size + rejected)) i ∧
      let early := build chosen ⟨units, suppress, .all⟩ previous now i.store
      let late := build whole ⟨units, suppress, .ofKinds decides⟩ previous now i.store
      late.state = early.state ∧ late.events = early.events ∧
      (∀ fault, late.result = .error fault ↔ early.result = .error fault) ∧
      (∀ c, early.result = .ok c → c.filtered = 0 ∧ late.result = .ok { c with filtered := rejected }) ∧
      ((∃ c, early.result = .ok c) ↔
        ∀ x ∈ scenes whole ⟨units, suppress, .ofKinds decides⟩ previous now i.store,
          x.IsSafe ⟨units, suppress, .ofKinds decides⟩) := by
  cases sound : i.registry.poisoned with
  | true =>
    have hpoison := Registry.metricsByName_of_poisoned i sound
    exact .inl ⟨rfl, .bind_error hpoison, .bind_error hpoison⟩
  | false =>
    right
    obtain ⟨chosen, hchosen, hmem⟩ := Registry.select_ofKinds i sound decides
    obtain ⟨whole, hwhole, hall⟩ := Registry.snapshot_of_sound i sound
    have hentries : chosen.entries = whole.entries.filter fun e => decides e.1 e.2.kind := by
      apply Snapshot.entries_eq_filter
      intro e
      rw [hmem, hall]
    have hsize : i.registry.metrics.size = chosen.size + whole.entries.countP fun e => !decides e.1 e.2.kind := by
      have hparts := whole.entries.length_eq_countP_add_countP (fun e => decides e.1 e.2.kind)
      rw [List.countP_eq_length_filter, ← hentries, whole.length_entries, chosen.length_entries,
        Registry.size_of_snapshot hall] at hparts
      rw [hparts]
      simp
    refine ⟨chosen, whole, whole.entries.countP fun e => !decides e.1 e.2.kind, hchosen, hwhole, ?_, ?_⟩
    · rw [← hsize]
      exact .bind_ok (Registry.metricsByName_of_sound i sound) ⟨rfl, rfl⟩
    intro early late
    have hlate : late = early.map _ := build_of_filter now hentries rfl units suppress previous i.store
    have hfaults (fault : Fault) : late.result = .error fault ↔ early.result = .error fault := by
      rw [hlate, Step.map]
      cases early.result with
      | error other => simp [Except.map]
      | ok c => simp [Except.map]
    refine ⟨by rw [hlate]; rfl, by rw [hlate]; rfl, hfaults, fun c hearly => ⟨?_, ?_⟩, ?_⟩
    · exact filtered_of_visits now chosen.entries rfl hearly
    · rw [hlate, Step.map, hearly]
      rfl
    · have hends : (∃ c, early.result = .ok c) ↔ ∃ c, late.result = .ok c := by
        rw [hlate, Step.map]
        cases early.result <;> simp [Except.map]
      exact hends.trans exists_build_iff

theorem early_and_late_filters_panic_past_words :
    let i : Instruments := {
      store := { meters := #[{ Meter.startedAt 0 with count := Int64.maxValue }] }
      registry := { metrics := NameMap.ofList [("load", ⟨.meter, ⟨0⟩⟩)] } }
    let previous : IdleTable := ⟨NameMap.empty.insert "load" Int64.minValue⟩
    let now := Instant.ofEpochNanos 0
    ∃ snapshot : Snapshot,
      (Registry.select (.ofKinds fun _ _ => true) i).Ends (.ok snapshot) i ∧
      (Registry.snapshot i).Ends (.ok snapshot) i ∧
      (build snapshot {} previous now i.store).result = .error (.panic Word.subtractOverflow) ∧
      (build snapshot { filter := .ofKinds fun _ _ => true } previous now i.store).result =
        .error (.panic Word.subtractOverflow) := by
  intro i previous now
  let snapshot : Snapshot := { meters := NameMap.ofList [("load", ⟨0⟩)] }
  have hentries : snapshot.entries = [("load", ⟨.meter, ⟨0⟩⟩)] := by decide
  refine ⟨snapshot, ⟨rfl, rfl⟩, ⟨rfl, rfl⟩, ?_, ?_⟩
  · exact (result_build_of_panic hentries (by decide) now).2
  · exact (result_build_of_panic hentries (by decide) now).2

end Cycle

end MetricReporting
