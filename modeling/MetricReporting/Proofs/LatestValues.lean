import Mathlib.Algebra.Ring.Nat
import Mathlib.Data.List.DropRight
import Mathlib.Order.Bounds.Defs
import MetricReporting.Proofs.Objects

namespace MetricReporting

theorem rtake_of_rtake_succ {α : Type} (l : List α) (n : Nat) :
    (if (l.rtake (n + 1)).length = n + 1 then (l.rtake (n + 1)).drop 1 else l.rtake (n + 1)) = l.rtake n := by
  simp only [List.rtake, List.length_drop, List.drop_drop]
  split
  · congr 1
    omega
  · rw [show l.length - (n + 1) = 0 by omega, show l.length - n = 0 by omega]

theorem length_rtake {α : Type} (l : List α) (n : Nat) : (l.rtake n).length = min l.length n := by
  simp only [List.rtake, List.length_drop]
  omega

theorem rtake_min_length {α : Type} (l : List α) (n : Nat) : l.rtake (min l.length n) = l.rtake n := by
  simp only [List.rtake]
  congr 1
  omega

namespace Sample

structure SameStatistics (s s' : Sample) : Prop where
  size : s'.size = s.size
  min : s'.min = s.min
  max : s'.max = s.max
  mean : s'.mean = s.mean
  standardDeviation : s'.standardDeviation = s.standardDeviation
  quantile {α : Type} [Scalar α] (q : α) : s'.quantile q = s.quantile q

theorem perm_ofList (values : List Int64) : (ofList values).values.Perm values := List.mergeSort_perm _ _

theorem pairwise_ofList (values : List Int64) : (ofList values).values.Pairwise (· ≤ ·) := by
  have hsorted : (ofList values).values.Pairwise fun a b => decide (a ≤ b) = true := by
    apply List.pairwise_mergeSort
    · intro a b c hab hbc
      simp only [decide_eq_true_eq] at hab hbc ⊢
      exact Int64.le_trans hab hbc
    · intro a b
      simpa using Int64.le_total a b
  simpa using hsorted

theorem ofList_eq_iff (one other : List Int64) : ofList one = ofList other ↔ one.Perm other := by
  constructor
  · intro h
    have hperm := (perm_ofList one).symm
    rw [h] at hperm
    exact hperm.trans (perm_ofList other)
  · intro h
    have hperm : (ofList one).values.Perm (ofList other).values :=
      (perm_ofList one).trans (h.trans (perm_ofList other).symm)
    have hvalues : (ofList one).values = (ofList other).values := by
      apply hperm.eq_of_pairwise _ (pairwise_ofList one) (pairwise_ofList other)
      intro a b _ _ hab hba
      exact Int64.le_antisymm hab hba
    exact congrArg Sample.mk hvalues

theorem isLeast_min (s : Sample) (hsorted : s.values.Pairwise (· ≤ ·)) (hne : s.values ≠ []) :
    IsLeast {v | v ∈ s.values} s.min := by
  obtain ⟨values⟩ := s
  cases values with
  | nil => exact absurd rfl hne
  | cons v rest =>
    refine ⟨List.mem_cons_self, ?_⟩
    intro other hother
    rcases List.mem_cons.mp hother with rfl | hrest
    · exact Int64.le_refl _
    · exact (List.pairwise_cons.mp hsorted).1 other hrest

theorem isGreatest_max (s : Sample) (hsorted : s.values.Pairwise (· ≤ ·)) (hne : s.values ≠ []) :
    IsGreatest {v | v ∈ s.values} s.max := by
  obtain ⟨values⟩ := s
  rcases List.eq_nil_or_concat values with rfl | ⟨init, last, rfl⟩
  · exact absurd rfl hne
  · rw [List.concat_eq_append] at hsorted ⊢
    have hmax : (Sample.mk (init ++ [last])).max = last := by simp [Sample.max, List.getLastD_eq_getLast?]
    rw [hmax]
    refine ⟨List.mem_append_right init List.mem_cons_self, ?_⟩
    intro other hother
    rcases List.mem_append.mp hother with hinit | hself
    · exact (List.pairwise_append.mp hsorted).2.2 other hinit last (by simp)
    · rw [List.mem_singleton.mp hself]
      exact Int64.le_refl last

end Sample

namespace Histogram

def recording (h : Histogram) (values : List Int64) : Histogram := values.foldl update h

theorem count_recording (h : Histogram) (values : List Int64) :
    (h.recording values).count = h.count + Int64.ofNat values.length := by
  induction values generalizing h with
  | nil => exact (Int64.add_zero h.count).symm
  | cons v rest ih =>
    have hrest : ((h.update v).recording rest).count = h.count + 1 + Int64.ofNat rest.length := by
      rw [ih, count_update]
    rw [List.length_cons, Nat.add_comm, Int64.ofNat_add, ← Int64.add_assoc]
    exact hrest

theorem samples_update_of_rtake {h : Histogram} {values : List Int64} (hsamples : h.samples = values.rtake h.window)
    (v : Int64) : (h.update v).samples = (values ++ [v]).rtake h.window := by
  have hpos := h.window_pos
  obtain ⟨n, hn⟩ : ∃ n, h.window = n + 1 := ⟨h.window - 1, by omega⟩
  rw [samples_update, hsamples, hn, List.rtake_concat_succ, rtake_of_rtake_succ]

theorem samples_recording {h : Histogram} {before : List Int64} (hsamples : h.samples = before.rtake h.window)
    (values : List Int64) : (h.recording values).samples = (before ++ values).rtake h.window := by
  induction values generalizing h before with
  | nil =>
    rw [List.append_nil]
    exact hsamples
  | cons v rest ih =>
    have hrest := samples_update_of_rtake hsamples v
    rw [← h.window_update v] at hrest
    rw [List.append_cons, ← h.window_update v]
    exact ih hrest

structure ShowsLatest (h : Histogram) (window : Nat) (values : List Int64) : Prop where
  count : h.count.toInt = Int.bmod values.length (2 ^ 64)
  samples : h.samples = values.rtake (min values.length (max window 1))
  length : h.samples.length = min values.length (max window 1)
  ascending : h.sample.values.Pairwise (· ≤ ·)
  perm : h.sample.values.Perm h.samples
  extremes : h.samples ≠ [] →
    IsLeast {v | v ∈ h.samples} h.sample.min ∧ IsGreatest {v | v ∈ h.samples} h.sample.max
  blank : h.samples = [] → h.sample.min = 0 ∧ h.sample.max = 0

theorem showsLatest_recording (window : Nat) (values : List Int64) :
    ((ofWindow window).recording values).ShowsLatest window values := by
  have hwindow : (ofWindow window).window = max window 1 := rfl
  have hstart : (ofWindow window).samples = ([] : List Int64).rtake (ofWindow window).window := by
    simp [samples, ofWindow]
  have hsamples := samples_recording hstart values
  rw [List.nil_append, hwindow] at hsamples
  have hperm := Sample.perm_ofList ((ofWindow window).recording values).samples
  have hsorted := Sample.pairwise_ofList ((ofWindow window).recording values).samples
  constructor
  · rw [count_recording, show (ofWindow window).count = 0 from rfl, Int64.zero_add]
    exact Int64.toInt_ofNat'
  · rw [rtake_min_length]
    exact hsamples
  · rw [hsamples, length_rtake]
  · exact hsorted
  · exact hperm
  · intro hne
    have hvalues : ((ofWindow window).recording values).sample.values ≠ [] := by
      intro hnil
      apply hne
      have hempty := hperm.symm
      rw [show (Sample.ofList ((ofWindow window).recording values).samples).values = [] from hnil] at hempty
      exact hempty.eq_nil
    have hmem : {v | v ∈ ((ofWindow window).recording values).samples} =
        {v | v ∈ ((ofWindow window).recording values).sample.values} := by
      ext v
      exact hperm.symm.mem_iff
    rw [hmem]
    exact ⟨Sample.isLeast_min _ hsorted hvalues, Sample.isGreatest_max _ hsorted hvalues⟩
  · intro hnil
    rw [hnil] at hperm
    simp [sample, Sample.min, Sample.max, hnil, hperm.eq_nil]

/-- After any values a histogram has counted all of them, and shows the latest in ascending order. Two histograms, of
whatever windows and after whatever values, show the same exactly if they hold the same values in any order, and then
all their statistics are the same. -/
theorem shows_latest_values (window : Nat) (values : List Int64) :
    (∀ made, allocate window = .ok made → made = ofWindow window) ∧
      ((ofWindow window).recording values).ShowsLatest window values ∧
      ∀ window' values',
        let h := (ofWindow window).recording values
        let h' := (ofWindow window').recording values'
        (h'.sample = h.sample ↔ h'.samples.Perm h.samples) ∧
          (h'.samples.Perm h.samples → h.sample.SameStatistics h'.sample) := by
  refine ⟨?_, showsLatest_recording window values, ?_⟩
  · intro made hmade
    unfold allocate at hmade
    split at hmade
    · exact (Except.ok.inj hmade).symm
    · cases hmade
  · intro window' values' h h'
    have hsame := Sample.ofList_eq_iff h'.samples h.samples
    refine ⟨hsame, ?_⟩
    intro hperm
    have hsample : h'.sample = h.sample := hsame.mpr hperm
    rw [hsample]
    exact ⟨rfl, rfl, rfl, rfl, rfl, fun _ => rfl⟩

theorem shows_latest_values_in_any_order :
    let h := (ofWindow 2).recording [7, -3, 5]
    let h' := (ofWindow 5).recording [5, -3]
    h.samples = [-3, 5] ∧ h'.samples.Perm h.samples ∧ h.sample.SameStatistics h'.sample ∧
      IsLeast {v | v ∈ h.samples} h.sample.min ∧ allocate 0 = .ok (ofWindow 1) := by
  intro h h'
  obtain ⟨-, hshows, hstatistics⟩ := shows_latest_values 2 [7, -3, 5]
  have hperm : h'.samples.Perm h.samples := by decide
  refine ⟨by decide, hperm, (hstatistics 5 [5, -3]).2 hperm, (hshows.extremes (by decide)).1, by decide⟩

end Histogram

end MetricReporting
