import MetricReporting.Proofs.Filtering
import MetricReporting.Proofs.Independence

namespace MetricReporting

def Filter.admits (filter : Filter) (s : Store) (name : String) (x : Metric) : Bool :=
  match filter s name x with
  | .ok admitted => admitted
  | .error _ => false

namespace Registry

inductive Reachable : Instruments → Prop
  | unused (store : Store) : Reachable { store }
  | used {i : Instruments} (before : Reachable i) (use : Usage)
      (present : ∀ name x, use = .call (.register name x) → x.IsIn i.store) : Reachable (use.run i)

def AllPresent (i : Instruments) : Prop := ∀ name x, i.registry.metrics.get? name = some x → x.IsIn i.store

namespace AllPresent

variable {i : Instruments}

theorem entered (h : AllPresent i) (name : String) {x : Metric} (hx : x.IsIn i.store) :
    AllPresent (entered i name x) := by
  intro other y hy
  rw [Registry.entered, NameMap.get?_insert] at hy
  split at hy
  · cases hy
    exact hx
  · exact h other y hy

theorem of_metrics_eq (h : AllPresent i) {i' : Instruments} (hmetrics : i'.registry.metrics = i.registry.metrics)
    (hstore : i.store.KeepsContent i'.store) : AllPresent i' := by
  intro name x hx
  rw [hmetrics] at hx
  exact (hstore x (h name x hx)).1

theorem getOrCreate (h : AllPresent i) (kind : Kind) (object : Store → kind.Object) (name : String) :
    AllPresent (getOrCreate kind object name i).state := by
  rcases getOrCreate_cases i kind object name with ⟨result, -, hsame⟩ | ⟨-, -, hentered⟩
  · rw [hsame]
    exact h
  · rw [hentered]
    have hadded : AllPresent { i with store := (i.store.add (object i.store)).2 } :=
      h.of_metrics_eq rfl (i.store.keepsContent_add (object i.store))
    exact hadded.entered name (i.store.isIn_add (object i.store))

theorem register (h : AllPresent i) (name : String) {x : Metric} (hx : x.IsIn i.store) :
    AllPresent (register name x i).state := by
  rcases register_cases i name x with ⟨result, -, hsame⟩ | ⟨-, -, hentered⟩
  · rw [hsame]
    exact h
  · rw [hentered]
    exact h.entered name hx

theorem remove (h : AllPresent i) (name : String) : AllPresent (remove name i).state := by
  rcases remove_cases i name with ⟨result, -, hsame⟩ | ⟨inUse, -, herased⟩
  · rw [hsame]
    exact h
  · rw [herased]
    intro other x hx
    rw [NameMap.get?_erase] at hx
    split at hx
    · cases hx
    · exact h other x hx

theorem call (h : AllPresent i) (r : Request) (hpresent : ∀ name x, r = .register name x → x.IsIn i.store) :
    AllPresent (r.perform i).state := by
  by_cases hnames : r.Names
  · rcases hnames with hnamed | ⟨name, rfl⟩
    · obtain ⟨name, hname⟩ := Option.isSome_iff_exists.mp hnamed
      rcases Request.names?_cases hname with ⟨kind, hobtains⟩ | ⟨x, rfl⟩
      · obtain ⟨object, hperform⟩ := Request.perform_of_obtains hobtains
        rw [hperform, Action.state_map]
        exact h.getOrCreate kind object name
      · have hstate := Action.state_map (Registry.register name x) (fun _ => Reply.metric x) i
        rw [show ((Request.register name x).perform i).state = _ from hstate]
        exact h.register name (hpresent name x rfl)
    · rw [Request.perform, Action.state_map]
      exact h.remove name
  · exact h.of_metrics_eq (Request.metrics_perform hnames i) (r.keepsContent_perform i)

theorem run (h : AllPresent i) (use : Usage)
    (hpresent : ∀ name x, use = .call (.register name x) → x.IsIn i.store) : AllPresent (use.run i) := by
  by_cases hnames : use.Names
  · cases use with
    | call r => exact h.call r fun name x hr => hpresent name x (congrArg Usage.call hr)
    | change | select | build | report | reportInstruments => exact hnames.elim
  · intro name x hx
    rw [Usage.metrics_run hnames] at hx
    exact (use.content_run i x (h name x hx)).1

end AllPresent

theorem Reachable.allPresent {i : Instruments} (h : Reachable i) : AllPresent i := by
  induction h with
  | unused store =>
    intro name x hx
    cases hx
  | used before use present ih => exact ih.run use present

def admittedNames (i : Instruments) (admits : String → Metric → Bool) (names : List String) : List String :=
  names.filter fun name => (i.registry.metrics.get? name).any (admits name)

end Registry

namespace Snapshot

structure Shows (snapshot : Snapshot) (i : Instruments) (admits : String → Metric → Bool) : Prop where
  get?_iff (kind : Kind) (name : String) (h : Handle kind) :
    (snapshot.ofKind kind).get? name = some h ↔
      i.registry.metrics.get? name = some ⟨kind, h⟩ ∧ admits name ⟨kind, h⟩ = true
  disjoint (kind other : Kind) : kind ≠ other → (snapshot.ofKind kind).names.Disjoint (snapshot.ofKind other).names
  names : ∃ ns, (Registry.names i).Ends (.ok ns) i ∧ ns.Pairwise (· < ·) ∧
    (Kind.all.flatMap fun kind => (snapshot.ofKind kind).names).Perm (Registry.admittedNames i admits ns) ∧
    snapshot.size = (Registry.admittedNames i admits ns).length
  later (name : String) (x : Metric) (uses : List Usage) : (name, x) ∈ snapshot.entries →
    x.IsIn (i.after uses).store ∧
      x.content (i.after uses).store = x.kind.taking (x.content i.store) (uses.flatMap (Usage.updates x))
  anew (name : String) (x : Metric) (uses : List Usage) (r : Registry.Request) (kind : Kind) :
    (name, x) ∈ snapshot.entries → r.obtains = some (name, kind) → ¬ Text.IsBlank name →
    (i.after uses).registry.poisoned = false → (i.after uses).registry.metrics.get? name = none →
    ∃ y, ((Usage.call r).run (i.after uses)).registry.metrics.get? name = some y ∧ y ≠ x

variable {snapshot : Snapshot}

theorem names_eq (snapshot : Snapshot) :
    (Kind.all.flatMap fun kind => (snapshot.ofKind kind).names) = snapshot.entries.map Prod.fst := by
  rw [entries, List.map_flatMap]
  simp only [NameMap.names, List.map_map]
  rfl

variable {i : Instruments} {admits : String → Metric → Bool}

theorem names_perm
    (hmem : ∀ e, e ∈ snapshot.entries ↔ i.registry.metrics.get? e.1 = some e.2 ∧ admits e.1 e.2 = true) :
    (snapshot.entries.map Prod.fst).Perm (Registry.admittedNames i admits i.registry.metrics.names) := by
  have hnodup : (snapshot.entries.map Prod.fst).Nodup :=
    List.pairwise_map.mpr (snapshot.pairwise_ne_of_registered fun e he => ((hmem e).mp he).1)
  have hnodup' : (Registry.admittedNames i admits i.registry.metrics.names).Nodup :=
    i.registry.metrics.nodup_names.filter _
  apply (List.perm_ext_iff_of_nodup hnodup hnodup').mpr
  intro name
  rw [Registry.admittedNames, List.mem_filter, NameMap.mem_names_iff, List.mem_map, Option.any_eq_true]
  constructor
  · rintro ⟨e, he, rfl⟩
    obtain ⟨hregistered, hadmitted⟩ := (hmem e).mp he
    exact ⟨⟨e.2, hregistered⟩, e.2, hregistered, hadmitted⟩
  · rintro ⟨-, x, hregistered, hadmitted⟩
    exact ⟨(name, x), (hmem (name, x)).mpr ⟨hregistered, hadmitted⟩, rfl⟩

theorem shows_of_mem_iff (present : Registry.AllPresent i) (sound : i.registry.poisoned = false)
    (hmem : ∀ e, e ∈ snapshot.entries ↔ i.registry.metrics.get? e.1 = some e.2 ∧ admits e.1 e.2 = true) :
    snapshot.Shows i admits := by
  have hregistered : ∀ e ∈ snapshot.entries, i.registry.metrics.get? e.1 = some e.2 := fun e he => ((hmem e).mp he).1
  constructor
  · intro kind name h
    rw [← snapshot.mem_entries_iff, hmem]
  · intro kind other hne name hname hname'
    obtain ⟨h, hhandle⟩ := (NameMap.mem_names_iff _ _).mp hname
    obtain ⟨h', hhandle'⟩ := (NameMap.mem_names_iff _ _).mp hname'
    -- The registry has one metric by this name, and it is of one kind.
    have hone := hregistered _ ((snapshot.mem_entries_iff name kind h).mpr hhandle)
    have hother := hregistered _ ((snapshot.mem_entries_iff name other h').mpr hhandle')
    exact hne (congrArg Metric.kind (Option.some.inj (hone.symm.trans hother)))
  · have hperm := names_perm hmem
    refine ⟨i.registry.metrics.names, .bind_ok (Registry.metricsByName_of_sound i sound) ⟨rfl, rfl⟩,
      i.registry.metrics.pairwise_names, ?_, ?_⟩
    · rw [names_eq]
      exact hperm
    · rw [← hperm.length_eq, List.length_map, length_entries]
  · intro name x uses he
    exact i.content_after uses x (present name x (hregistered _ he))
  · intro name x uses r kind he hobtains hvisible later hfree
    obtain ⟨hin, -⟩ := i.content_after uses x (present name x (hregistered _ he))
    obtain ⟨object, -, -, hstate⟩ := Registry.Request.makes_of_free later hobtains hvisible hfree
    refine ⟨_, ?_, (Store.ne_added _ object x hin).symm⟩
    rw [Usage.run, hstate]
    exact NameMap.get?_insert_self _ _ _

end Snapshot

namespace Registry

/-- A filter that answers for every metric selects what it admits. A poisoned registry gives no snapshot. -/
theorem snapshot_shows_registry {i : Instruments} (reachable : Reachable i) (filter : Filter)
    (calm : ∀ name x, i.registry.metrics.get? name = some x → ∃ admitted, filter i.store name x = .ok admitted) :
    (i.registry.poisoned = true ∧ (select filter i).Ends (.error (.panic poison)) i ∧
      (Registry.snapshot i).Ends (.error (.panic poison)) i) ∨
    ∃ chosen whole : Snapshot, (select filter i).Ends (.ok chosen) i ∧ chosen.Shows i (filter.admits i.store) ∧
      (Registry.snapshot i).Ends (.ok whole) i ∧ whole.Shows i fun _ _ => true := by
  cases sound : i.registry.poisoned with
  | true =>
    have hpoison := metricsByName_of_poisoned i sound
    exact .inl ⟨rfl, .bind_error hpoison, .bind_error hpoison⟩
  | false =>
    right
    have hanswers : ∀ e ∈ i.registry.metrics.entries,
        filter i.store e.1 e.2 = .ok (filter.admits i.store e.1 e.2) := by
      intro e he
      obtain ⟨admitted, hadmitted⟩ := calm e.1 e.2 (NameMap.get?_eq_some_iff.mpr he)
      rw [Filter.admits, hadmitted]
    obtain ⟨chosen, hadmitted, hchosen⟩ := exists_admitted filter i (fun e => filter.admits i.store e.1 e.2) hanswers
    obtain ⟨whole, hwhole, hall⟩ := snapshot_of_sound i sound
    have hall' : ∀ e, e ∈ whole.entries ↔ i.registry.metrics.get? e.1 = some e.2 ∧ true = true := by
      intro e
      rw [hall, and_iff_left rfl]
    exact ⟨chosen, whole, select_of_admitted i sound hadmitted,
      Snapshot.shows_of_mem_iff reachable.allPresent sound hchosen, hwhole,
      Snapshot.shows_of_mem_iff reachable.allPresent sound hall'⟩

theorem snapshot_shows_registry_with_alias :
    let store : Store := { probes := #[.constant (.integer 5)] }
    let uses : List Usage := [
      .call (.gauge "load" ⟨0⟩), .call (.counter "hits"), .call (.register "alias" ⟨.counter, ⟨0⟩⟩), .call (.timer "wait")]
    let i := Instruments.after { store } uses
    let filter : Filter := fun _ name _ => if name = "wild" then .error .wordless else .ok (name != "load")
    ∃ chosen whole : Snapshot, (select filter i).Ends (.ok chosen) i ∧ chosen.Shows i (filter.admits i.store) ∧
      whole.Shows i (fun _ _ => true) ∧ (chosen.ofKind .counter).get? "alias" = some ⟨0⟩ ∧
      (whole.ofKind .gauge).get? "load" = some ⟨0⟩ := by
  intro store uses i filter
  have hpresent : ∀ name x, Usage.call (.register "alias" ⟨.counter, ⟨0⟩⟩) = .call (.register name x) →
      x.IsIn (Instruments.after { store } (uses.take 2)).store := by
    rintro name x ⟨⟩
    exact Nat.zero_lt_one
  have reachable : Reachable i :=
    .used (.used (.used (.used (.unused store) (.call (.gauge "load" ⟨0⟩)) nofun) (.call (.counter "hits")) nofun) _
      hpresent) (.call (.timer "wait")) nofun
  have calm : ∀ name x, i.registry.metrics.get? name = some x → ∃ admitted, filter i.store name x = .ok admitted := by
    intro name x hx
    by_cases hwild : name = "wild"
    · subst hwild
      have hfree : i.registry.metrics.get? "wild" = none := by decide +kernel
      cases hfree.symm.trans hx
    · exact ⟨_, if_neg hwild⟩
  rcases snapshot_shows_registry reachable filter calm with
    ⟨hpoisoned, -, -⟩ | ⟨chosen, whole, hchosen, hshows, -, hall⟩
  · have hsound : i.registry.poisoned = false := by decide +kernel
    cases hsound.symm.trans hpoisoned
  · refine ⟨chosen, whole, hchosen, hshows, hall, ?_, ?_⟩
    · exact (hshows.get?_iff .counter "alias" ⟨0⟩).mpr ⟨by decide +kernel, rfl⟩
    · exact (hall.get?_iff .gauge "load" ⟨0⟩).mpr ⟨by decide +kernel, rfl⟩

end Registry

end MetricReporting
