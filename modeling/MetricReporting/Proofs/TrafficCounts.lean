import MetricReporting.Proofs.Clients
import MetricReporting.Proofs.Suppression
import MetricReporting.Traffic

namespace MetricReporting

namespace Traffic

def first : Traffic := ⟨⟨0⟩, ⟨0⟩, ⟨0⟩, ⟨0⟩, ⟨0⟩⟩

def nameOf : Kind → String
  | .gauge => "queue.depth"
  | .counter => "http.requests"
  | .histogram => "http.payload_bytes"
  | .meter => "http.errors"
  | .timer => "http.latency"

def shownAfter (n : Nat) : Kind → Nat
  | .gauge => if n = 0 then 0 else (n - 1) % 32
  | .counter | .histogram | .timer => n
  | .meter => (n + 16) / 17

def HasCounted (n : Nat) : (kind : Kind) → kind.Object → Prop
  | .gauge, (g : Gauge) => g.probe = ⟨0⟩
  | .counter, (c : Counter) => c.count = .ofNat n
  | .histogram, (h : Histogram) => h.count = .ofNat n
  | .meter, (m : Meter Float) => m.Counts n
  | .timer, (t : Timer Float) => t.histogram.count = .ofNat n ∧ t.meter.Counts n

structure Holds (depth : Int64) (counts : Kind → Nat) (s : Store) : Prop where
  size (kind : Kind) : (s.objects kind).size = 1
  object (kind : Kind) : HasCounted (counts kind) kind (s.get ⟨0⟩)
  probes : s.probes.size = 1
  depth (asked : Nat) : (s.probe ⟨0⟩).answers asked = .value (.integer depth)

variable {depth : Int64} {counts : Kind → Nat} {s s' : Store}

namespace Holds

theorem isIn (h : Holds depth counts s) (kind : Kind) : Metric.IsIn s ⟨kind, ⟨0⟩⟩ := by
  rw [Metric.IsIn, h.size]
  exact Nat.one_pos

theorem count? (h : Holds depth counts s) {kind : Kind} (hkind : kind ≠ .gauge) :
    Metric.count? s ⟨kind, ⟨0⟩⟩ = some (.ofNat (counts kind)) := by
  have hobject := h.object kind
  cases kind with
  | gauge => exact absurd rfl hkind
  | counter => exact congrArg some hobject
  | histogram => exact congrArg some hobject
  | meter => exact congrArg some hobject.count
  | timer => exact congrArg some hobject.1

theorem isPoisoned (h : Holds depth counts s) (few : ∀ kind, counts kind < Nat.pow 2 63) (kind : Kind) :
    Metric.isPoisoned s ⟨kind, ⟨0⟩⟩ = false := by
  have hobject := h.object kind
  cases kind with
  | gauge => rfl
  | counter => rfl
  | histogram => rfl
  | meter => exact hobject.sound (few .meter)
  | timer => exact hobject.2.sound (few .timer)

theorem answer (h : Holds depth counts s) : Gauge.answer s ⟨0⟩ = .value (.integer depth) := by
  have hgauge : Gauge.probe (s.get (⟨0⟩ : Handle .gauge)) = ⟨0⟩ := h.object .gauge
  rw [Gauge.answer, hgauge, h.depth]

theorem of_objects_eq (h : Holds depth counts s) (hobjects : s'.objects = s.objects) {depth' : Int64}
    (hsize : s'.probes.size = 1) (hdepth : ∀ asked, (s'.probe ⟨0⟩).answers asked = .value (.integer depth')) :
    Holds depth' counts s' where
  size kind := by
    rw [hobjects]
    exact h.size kind
  object kind := by
    rw [Store.get, hobjects]
    exact h.object kind
  probes := hsize
  depth := hdepth

theorem setClock (h : Holds depth counts s) (clock : Clock) : Holds depth counts { s with clock } := by
  refine h.of_objects_eq ?_ h.probes h.depth
  funext kind
  cases kind <;> rfl

theorem asked (h : Holds depth counts s) (handle : Handle .gauge) : Holds depth counts (Gauge.asked s handle) := by
  have hanswers := Store.SameAnswers.asked s handle
  apply h.of_objects_eq
  · funext kind
    cases kind <;> rfl
  · exact hanswers.size.trans h.probes
  · rw [hanswers.answers]
    exact h.depth

theorem update (h : Holds depth counts s) (kind : Kind) {f : kind.Object → kind.Object} (n : Nat)
    (hf : ∀ o, HasCounted (counts kind) kind o → HasCounted (counts kind + n) kind (f o)) :
    Holds depth (fun other => counts other + if other = kind then n else 0) (s.update ⟨0⟩ f) where
  size other := (s.size_objects_set _ _ other).trans (h.size other)
  object other := by
    by_cases hsame : kind = other
    · subst hsame
      rw [Store.get_update (h.isIn kind), if_pos rfl]
      exact hf _ (h.object kind)
    · rw [Store.update, Store.get_set_of_kind_ne _ _ _ _ hsame, if_neg (Ne.symm hsame)]
      exact h.object other
  probes := by
    rw [Store.update, Store.probes_set]
    exact h.probes
  depth asked := by
    rw [Store.probe, Store.update, Store.probes_set]
    exact h.depth asked

theorem setProbe (h : Holds depth counts s) (depth' : Int64) :
    Holds depth' counts (s.setProbe ⟨0⟩ (.constant (.integer depth'))) := by
  apply h.of_objects_eq
  · funext kind
    cases kind <;> rfl
  · simp [Store.setProbe, h.probes]
  · intro asked
    rw [Store.probe_setProbe, if_pos ⟨rfl, by rw [h.probes]; exact Nat.one_pos⟩]
    rfl

theorem of_counts_eq (h : Holds depth counts s) {counts' : Kind → Nat}
    (hcounts : ∀ kind ≠ .gauge, counts' kind = counts kind) : Holds depth counts' s where
  size := h.size
  object kind := by
    cases kind with
    | gauge => exact h.object .gauge
    | counter => exact hcounts .counter nofun ▸ h.object .counter
    | histogram => exact hcounts .histogram nofun ▸ h.object .histogram
    | meter => exact hcounts .meter nofun ▸ h.object .meter
    | timer => exact hcounts .timer nofun ▸ h.object .timer
  probes := h.probes
  depth := h.depth

theorem catchUp (h : Holds depth counts s) (metered : Metered) :
    Holds depth counts (metered.set s ((metered.get s).tickUpTo s.now)) := by
  have hset {kind : Kind} (handle : Handle kind) (f : kind.Object → kind.Object)
      (hf : ∀ o, HasCounted (counts kind) kind o → HasCounted (counts kind) kind (f o)) :
      Holds depth counts (s.update handle f) := by
    by_cases hfirst : handle = ⟨0⟩
    · subst hfirst
      exact (h.update kind 0 hf).of_counts_eq fun other _ => by rw [ite_self, Nat.add_zero]
    · rw [Store.update_of_not_lt]
      · exact h
      · rw [h.size, Nat.lt_one_iff]
        exact fun hzero => hfirst (congrArg Handle.mk hzero)
  cases metered with
  | meter handle => exact hset handle (fun m : Meter Float => m.tickUpTo s.now) fun _ counted => counted.tickUpTo s.now
  | timer handle =>
    exact hset handle (fun t : Timer Float => { t with meter := t.meter.tickUpTo s.now }) fun _ counted =>
      ⟨counted.1, counted.2.tickUpTo s.now⟩

end Holds

def Serves (n : Nat) (s : Store) : Prop := Holds (.ofNat (shownAfter n .gauge)) (shownAfter n) s

theorem shownAfter_le (n : Nat) (kind : Kind) : shownAfter n kind ≤ n := by
  cases kind with
  | gauge =>
    simp only [shownAfter]
    split <;> omega
  | counter => exact Nat.le_refl n
  | histogram => exact Nat.le_refl n
  | meter =>
    simp only [shownAfter]
    omega
  | timer => exact Nat.le_refl n

theorem shownAfter_succ (n : Nat) {kind : Kind} (hkind : kind ≠ .gauge) :
    shownAfter (n + 1) kind = shownAfter n kind + if kind = .meter ∧ n % 17 ≠ 0 then 0 else 1 := by
  cases kind with
  | gauge => exact absurd rfl hkind
  | counter => rfl
  | histogram => rfl
  | meter =>
    simp only [shownAfter, true_and]
    split <;> omega
  | timer => rfl

theorem serves_install : Serves 0 (install {}).state.store where
  size kind := by cases kind <;> rfl
  object kind := by
    cases kind with
    | gauge => rfl
    | counter => rfl
    | histogram => rfl
    | meter => exact .startedWith Float.exp 0
    | timer => exact ⟨rfl, .startedWith Float.exp 0⟩
  probes := rfl
  depth _ := rfl

theorem request_ends {n : Nat} (h : Serves n s) (few : n + 1 < Nat.pow 2 63) :
    ∃ s', (first.request n s).Ends (.ok ()) s' ∧ Serves (n + 1) s' := by
  let s₁ := s.update first.requests fun c : Counter => c.add 1
  let s₂ := s₁.update first.latency fun l : Timer Float => l.update s₁.now (duration n)
  let s₃ := s₂.update first.payload fun o : Histogram => o.update (payloadBytes n)
  let depth : Probe := .constant (.integer (.ofNat (n % 32)))
  have hnext {count : Int64} {k : Nat} (hcount : count = .ofNat k) : count + 1 = .ofNat (k + 1) := by
    rw [hcount]
    exact (Int64.ofNat_add k 1).symm
  have h₁ : Holds _ _ s₁ := h.update .counter 1 fun _ counted => hnext counted
  have h₂ : Holds _ _ s₂ := h₁.update .timer 1 fun _ counted =>
    ⟨(Histogram.count_update _ _).trans (hnext counted.1), counted.2.mark s₁.now⟩
  have h₃ : Holds _ _ s₃ := h₂.update .histogram 1 fun _ counted => (Histogram.count_update _ _).trans (hnext counted)
  have hrecord : (Timer.record first.latency (duration n) s₁).Ends (.ok ()) s₂ := by
    obtain ⟨result, hends, hsound⟩ := Timer.record_ends first.latency (duration n) s₁
    have hlatency : Meter.Counts (Timer.update (s₁.get first.latency) s₁.now (duration n)).meter (n + 1) :=
      Meter.Counts.mark (h₁.object .timer).2 s₁.now
    rw [hsound (hlatency.sound few)] at hends
    exact hends
  by_cases hwhole : n % 17 = 0
  · let s₄ := s₃.update first.errors fun m : Meter Float => m.mark s₃.now 1
    have h₄ : Holds _ _ s₄ := h₃.update .meter 1 fun _ counted => counted.mark s₃.now
    have hmark : (Metered.mark (.meter first.errors) 1 s₃).Ends (.ok ()) s₄ := by
      obtain ⟨result, hends, hsound⟩ := Metered.mark_ends (.meter first.errors) 1 s₃
      have herrors : Meter.Counts (Meter.mark (s₃.get first.errors) s₃.now 1) (shownAfter n .meter + 1) :=
        Meter.Counts.mark (h₃.object .meter) s₃.now
      rw [hsound (herrors.sound (Nat.lt_of_le_of_lt (Nat.succ_le_succ (shownAfter_le n .meter)) few))] at hends
      exact hends
    refine ⟨s₄.setProbe first.depth depth, .bind_ok ⟨rfl, rfl⟩ (.bind_ok hrecord (.bind_ok ⟨rfl, rfl⟩ ?_)), ?_⟩
    · rw [if_pos hwhole]
      exact .bind_ok hmark ⟨rfl, rfl⟩
    · refine (h₄.of_counts_eq fun kind hkind => ?_).setProbe (.ofNat (n % 32))
      rw [shownAfter_succ n hkind]
      cases kind with
      | gauge => exact absurd rfl hkind
      | counter => rfl
      | histogram => rfl
      | meter => simp [hwhole]
      | timer => rfl
  · refine ⟨s₃.setProbe first.depth depth, .bind_ok ⟨rfl, rfl⟩ (.bind_ok hrecord (.bind_ok ⟨rfl, rfl⟩ ?_)), ?_⟩
    · rw [if_neg hwhole]
      exact ⟨rfl, rfl⟩
    · refine (h₃.of_counts_eq fun kind hkind => ?_).setProbe (.ofNat (n % 32))
      rw [shownAfter_succ n hkind]
      cases kind with
      | gauge => exact absurd rfl hkind
      | counter => rfl
      | histogram => rfl
      | meter => simp [hwhole]
      | timer => rfl

end Traffic

end MetricReporting
