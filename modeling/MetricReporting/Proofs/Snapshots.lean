import MetricReporting.Proofs.Clients

namespace MetricReporting

namespace Snapshot

theorem mem_entries_iff (s : Snapshot) (name : String) (kind : Kind) (h : Handle kind) :
    (name, ⟨kind, h⟩) ∈ s.entries ↔ (s.ofKind kind).get? name = some h := by
  rw [NameMap.get?_eq_some_iff, entries, List.mem_flatMap]
  constructor
  · rintro ⟨other, -, hmem⟩
    obtain ⟨e, he, heq⟩ := List.mem_map.mp hmem
    cases heq
    exact he
  · intro hmem
    exact ⟨kind, kind.mem_all, List.mem_map.mpr ⟨(name, h), hmem, rfl⟩⟩

theorem ofKind_insert_self (s : Snapshot) (name : String) (kind : Kind) (h : Handle kind) :
    (s.insert name ⟨kind, h⟩).ofKind kind = (s.ofKind kind).insert name h := by
  cases kind <;> rfl

theorem ofKind_insert_of_ne (s : Snapshot) (name : String) {kind other : Kind} (h : Handle kind)
    (hne : kind ≠ other) :
    (s.insert name ⟨kind, h⟩).ofKind other = s.ofKind other := by
  cases kind <;> cases other <;> first | rfl | exact absurd rfl hne

theorem mem_entries_insert (s : Snapshot) (name : String) (metric : Metric)
    (hfresh : ∀ other, (name, other) ∉ s.entries) (e : String × Metric) :
    e ∈ (s.insert name metric).entries ↔ e = (name, metric) ∨ e ∈ s.entries := by
  obtain ⟨kind, h⟩ := metric
  obtain ⟨other, kind', h'⟩ := e
  rw [mem_entries_iff, mem_entries_iff]
  by_cases hkind : kind = kind'
  · subst hkind
    rw [ofKind_insert_self, NameMap.get?_insert]
    by_cases hname : name = other
    · subst hname
      have hnone : (s.ofKind kind).get? name ≠ some h' :=
        fun hmem => hfresh _ ((mem_entries_iff s name kind h').mpr hmem)
      simp [hnone, eq_comm]
    · simp [hname, Ne.symm hname]
  · rw [ofKind_insert_of_ne s name h hkind]
    simp [Ne.symm hkind]

theorem mem_entries_foldl_insert (l : List (String × Metric)) (hl : l.Pairwise (fun a b => a.1 < b.1))
    (s : Snapshot) (hfresh : ∀ e ∈ l, ∀ other, (e.1, other) ∉ s.entries) (e : String × Metric) :
    e ∈ (l.foldl (fun s e => s.insert e.1 e.2) s).entries ↔ e ∈ l ∨ e ∈ s.entries := by
  induction l generalizing s with
  | nil => simp
  | cons a rest ih =>
    obtain ⟨ha, hrest⟩ := List.pairwise_cons.mp hl
    have hinsert := s.mem_entries_insert a.1 a.2 (hfresh a List.mem_cons_self)
    have hfresh' : ∀ e ∈ rest, ∀ other, (e.1, other) ∉ (s.insert a.1 a.2).entries := by
      intro b hb other hmem
      rcases (hinsert _).mp hmem with heq | hmem
      · have hname : b.1 = a.1 := (Prod.mk.inj heq).1
        have hlt := ha b hb
        rw [hname] at hlt
        exact String.lt_irrefl _ hlt
      · exact hfresh b (List.mem_cons_of_mem _ hb) other hmem
    rw [List.foldl_cons, ih hrest (s.insert a.1 a.2) hfresh', hinsert, List.mem_cons]
    constructor
    · rintro (hmem | heq | hmem)
      · exact .inl (.inr hmem)
      · exact .inl (.inl heq)
      · exact .inr hmem
    · rintro ((heq | hmem) | hmem)
      · exact .inr (.inl heq)
      · exact .inl hmem
      · exact .inr (.inr hmem)

end Snapshot

namespace Registry

theorem foldlM_admits {filter : Filter} {store : Store} (admits : String × Metric → Bool)
    (l : List (String × Metric)) (h : ∀ e ∈ l, filter store e.1 e.2 = .ok (admits e)) (s : Snapshot) :
    l.foldlM (fun (s : Snapshot) e => do return if ← filter store e.1 e.2 then s.insert e.1 e.2 else s) s =
      (.ok ((l.filter admits).foldl (fun s e => s.insert e.1 e.2) s) : Except Panic Snapshot) := by
  induction l generalizing s with
  | nil => rfl
  | cons e rest ih =>
    obtain ⟨he, hrest⟩ := List.forall_mem_cons.mp h
    rw [List.foldlM_cons, he]
    cases hadmits : admits e with
    | true =>
      rw [List.filter_cons_of_pos hadmits, List.foldl_cons]
      exact ih hrest (s.insert e.1 e.2)
    | false =>
      rw [List.filter_cons_of_neg (by rw [hadmits]; decide)]
      exact ih hrest s

theorem exists_admitted (filter : Filter) (i : Instruments) (admits : String × Metric → Bool)
    (h : ∀ e ∈ i.registry.metrics.entries, filter i.store e.1 e.2 = .ok (admits e)) :
    ∃ snapshot, admitted filter i = .ok snapshot ∧
      ∀ e, e ∈ snapshot.entries ↔ i.registry.metrics.get? e.1 = some e.2 ∧ admits e = true := by
  refine ⟨_, foldlM_admits admits _ h {}, ?_⟩
  intro e
  have hasc : (i.registry.metrics.entries.filter admits).Pairwise (fun a b => a.1 < b.1) :=
    i.registry.metrics.ascending.filter _
  have hempty : ∀ e, e ∉ Snapshot.entries {} := by
    intro e he
    cases he
  rw [Snapshot.mem_entries_foldl_insert _ hasc {} (fun e _ other => hempty _), NameMap.get?_eq_some_iff,
    List.mem_filter]
  constructor
  · rintro (h | h)
    · exact h
    · exact absurd h (hempty e)
  · exact .inl

theorem snapshot_of_sound (i : Instruments) (hsound : i.registry.poisoned = false) :
    ∃ snapshot : Snapshot, (Registry.snapshot i).Ends (.ok snapshot) i ∧
      ∀ e, e ∈ snapshot.entries ↔ i.registry.metrics.get? e.1 = some e.2 := by
  obtain ⟨snapshot, hadmitted, hmem⟩ := exists_admitted Filter.all i (fun _ => true) (fun _ _ => rfl)
  refine ⟨snapshot, select_of_admitted i hsound hadmitted, ?_⟩
  intro e
  rw [hmem]
  simp

end Registry

end MetricReporting
