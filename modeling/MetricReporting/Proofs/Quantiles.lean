import Mathlib.Algebra.Order.Floor.Semiring
import Mathlib.Data.List.GetD
import Mathlib.Data.Rat.Floor
import Mathlib.Tactic.Linarith
import Mathlib.Tactic.NormNum
import Mathlib.Tactic.Ring
import MetricReporting.Proofs.ExactScalars
import MetricReporting.Proofs.LatestValues

namespace MetricReporting

variable {K : Type} [Field K] [LinearOrder K] [FloorSemiring K]

def lineThrough (heights : Nat → K) (x : K) : K :=
  heights ⌊x⌋₊ + (x - ⌊x⌋₊) * (heights (⌊x⌋₊ + 1) - heights ⌊x⌋₊)

theorem lineThrough_of_flat {heights : Nat → K} {x : K} (h : heights ⌊x⌋₊ = heights (⌊x⌋₊ + 1)) :
    lineThrough heights x = heights ⌊x⌋₊ := by
  rw [lineThrough, ← h, sub_self, mul_zero, add_zero]

section

variable [IsStrictOrderedRing K] (heights : Nat → K)

theorem lineThrough_natCast (k : Nat) : lineThrough heights k = heights k := by
  rw [lineThrough, Nat.floor_natCast, sub_self, zero_mul, add_zero]

theorem lineThrough_of_mem {k : Nat} {x : K} (hlow : k ≤ x) (hhigh : x ≤ k + 1) :
    lineThrough heights x = heights k + (x - k) * (heights (k + 1) - heights k) := by
  rcases hhigh.eq_or_lt with rfl | hlt
  · have hnext := lineThrough_natCast heights (k + 1)
    push_cast at hnext
    rw [hnext]
    ring
  · have hfloor : ⌊x⌋₊ = k := (Nat.floor_eq_iff (k.cast_nonneg.trans hlow)).mpr ⟨hlow, hlt⟩
    rw [lineThrough, hfloor]

variable {heights}

theorem lineThrough_mem_Icc (hrise : Monotone heights) {x : K} (hx : 0 ≤ x) :
    lineThrough heights x ∈ Set.Icc (heights ⌊x⌋₊) (heights (⌊x⌋₊ + 1)) := by
  have hstep := hrise (Nat.le_succ ⌊x⌋₊)
  have hlow := Nat.floor_le hx
  have hhigh := Nat.lt_floor_add_one x
  rw [lineThrough]
  constructor <;> nlinarith

theorem lineThrough_mono (hrise : Monotone heights) {x y : K} (hx : 0 ≤ x) (hle : x ≤ y) :
    lineThrough heights x ≤ lineThrough heights y := by
  have hy := hx.trans hle
  rcases (Nat.floor_mono hle).eq_or_lt with hfloor | hlt
  · have hstep := hrise (Nat.le_succ ⌊y⌋₊)
    rw [lineThrough, lineThrough, hfloor]
    nlinarith
  · calc lineThrough heights x ≤ heights (⌊x⌋₊ + 1) := (lineThrough_mem_Icc hrise hx).2
      _ ≤ heights ⌊y⌋₊ := hrise hlt
      _ ≤ lineThrough heights y := (lineThrough_mem_Icc hrise hy).1

end

namespace Sample

theorem clampToUnit_eq (q : K) : clampToUnit q = 0 ⊔ q ⊓ 1 := by
  have hzero : (Scalar.ofNat 0 : K) = 0 := Nat.cast_zero
  have hone : (Scalar.ofNat 1 : K) = 1 := Nat.cast_one
  have hlt (x y : K) : (Scalar.lt x y = true) = (x < y) := propext decide_eq_true_iff
  simp only [clampToUnit, hzero, hone, hlt]
  split_ifs with hneg hbig
  · exact (sup_eq_left.mpr (inf_le_left.trans hneg.le)).symm
  · rw [inf_eq_right.mpr hbig.le, sup_eq_right.mpr zero_le_one]
  · rw [inf_eq_left.mpr (not_lt.mp hbig), sup_eq_right.mpr (not_lt.mp hneg)]

theorem clampToUnit_of_nonpos {q : K} (h : q ≤ 0) : clampToUnit q = 0 := by
  rw [clampToUnit_eq, sup_eq_left]
  exact inf_le_left.trans h

theorem clampToUnit_of_one_le {q : K} (h : 1 ≤ q) : clampToUnit q = 1 := by
  rw [clampToUnit_eq, inf_eq_right.mpr h, sup_eq_right.mpr zero_le_one]

theorem clampToUnit_of_mem {q : K} (hq : q ∈ Set.Icc 0 1) : clampToUnit q = q := by
  rw [clampToUnit_eq, inf_eq_left.mpr hq.2, sup_eq_right.mpr hq.1]

theorem clampToUnit_nonneg (q : K) : 0 ≤ clampToUnit q := by
  rw [clampToUnit_eq]
  exact le_sup_left

theorem clampToUnit_le_one (q : K) : clampToUnit q ≤ 1 := by
  rw [clampToUnit_eq]
  exact sup_le zero_le_one inf_le_right

theorem clampToUnit_mono : Monotone (clampToUnit : K → K) := by
  intro q q' h
  rw [clampToUnit_eq, clampToUnit_eq]
  exact sup_le_sup_left (inf_le_inf_right 1 h) 0

theorem lt_size_of_getElem? {s : Sample} {k : Nat} {v : Int64} (h : s.values[k]? = some v) : k < s.size :=
  (List.getElem?_eq_some_iff.mp h).1

variable (s : Sample)

theorem getD_of_size_le {i : Nat} (h : s.size ≤ i + 1) : s.values.getD i s.max = s.max := by
  rcases Nat.lt_or_ge i s.values.length with hlt | hge
  · have hlast : i = s.values.length - 1 := by
      have hsize : s.values.length ≤ i + 1 := h
      omega
    subst hlast
    rw [List.getD_eq_getElem _ _ hlt, max, List.getLastD_eq_getLast?, List.getLast?_eq_getElem?,
      List.getElem?_eq_getElem hlt, Option.getD_some]
  · exact List.getD_eq_default _ _ hge

theorem nth_of_lt {i : Nat} (h : i < s.size) : (s.nth (i + 1) : K) = s.values[i].toInt := by
  rw [nth, Nat.add_sub_cancel, List.getD_eq_getElem _ _ h]
  rfl

theorem nth_of_getElem? {k : Nat} {v : Int64} (h : s.values[k]? = some v) : (s.nth (k + 1) : K) = v.toInt := by
  obtain ⟨hlt, rfl⟩ := List.getElem?_eq_some_iff.mp h
  exact nth_of_lt s hlt

theorem nth_of_size_le {index : Nat} (h : s.size ≤ index) : (s.nth index : K) = s.max.toInt := by
  rw [nth, getD_of_size_le s (by omega)]
  rfl

theorem extremes_of_ne_nil (h : s.values ≠ []) : s.min = s.values.head h ∧ s.max = s.values.getLast h := by
  rw [min, max, List.headD_eq_head?_getD, List.head?_eq_some_head h, List.getLastD_eq_getLast?,
    List.getLast?_eq_some_getLast h]
  exact ⟨rfl, rfl⟩

theorem nth_zero : (s.nth 0 : K) = s.nth 1 := rfl

theorem nth_zero_eq_min : (s.nth 0 : K) = s.min.toInt := by
  obtain ⟨values⟩ := s
  cases values <;> rfl

theorem nth_mono [IsStrictOrderedRing K] (hsorted : s.values.Pairwise (· ≤ ·)) : Monotone (s.nth : Nat → K) := by
  apply monotone_nat_of_le_succ
  intro index
  rcases Nat.lt_or_ge index s.size with hlt | hge
  · cases index with
    | zero => rw [nth_zero]
    | succ i =>
      rw [nth_of_lt s (Nat.lt_of_succ_lt hlt), nth_of_lt s hlt, Int.cast_le]
      exact Int64.le_iff_toInt_le.mp (List.pairwise_iff_getElem.mp hsorted i (i + 1) _ _ (Nat.lt_succ_self i))
  · rw [nth_of_size_le s hge, nth_of_size_le s (by omega)]

theorem quantile_eq (q : K) : s.quantile q = lineThrough s.nth (clampToUnit q * (s.size + 1)) := by
  have hposition : clampToUnit q * Scalar.ofNat (s.size + 1) = clampToUnit q * ((s.size : K) + 1) := by
    rw [← Nat.cast_add_one]
    rfl
  have htruncate : (Scalar.truncate : K → Nat) = Nat.floor := rfl
  have hpast {x : K} (h : s.size ≤ ⌊x⌋₊) : lineThrough s.nth x = s.max.toInt := by
    rw [lineThrough_of_flat, nth_of_size_le s h]
    rw [nth_of_size_le s h, nth_of_size_le s (by omega)]
  simp only [quantile, hposition, htruncate]
  split_ifs with hempty hfirst hlast
  · have hmax : s.max = 0 := by
      rw [max, List.length_eq_zero_iff.mp hempty]
      rfl
    rw [hpast (by omega), hmax, Int64.toInt_zero, Int.cast_zero]
    exact Nat.cast_zero
  · rw [Nat.lt_one_iff] at hfirst
    rw [lineThrough_of_flat (by rw [hfirst, nth_zero]), hfirst, nth_zero]
  · rw [hpast hlast, nth_of_size_le s (le_refl _)]
  · rfl

section

variable {α : Type} [Scalar α]

def nth? (s : Sample) (index : Nat) : Option α := s.values[index - 1]?.map fun v => Scalar.ofInt v.toInt

/-- A quantile if each value is only looked up where there is one. -/
def quantile? (s : Sample) (q : α) : Option α :=
  if s.size = 0 then some (Scalar.ofNat 0)
  else
    let position := clampToUnit q * Scalar.ofNat (s.size + 1)
    let index := Scalar.truncate position
    if index < 1 then s.nth? 1
    else if s.size ≤ index then s.nth? s.size
    else do
      let lower ← s.nth? index
      let upper ← s.nth? (index + 1)
      return lower + (position - Scalar.ofNat index) * (upper - lower)

theorem nth?_of_mem {index : Nat} (hpos : 1 ≤ index) (hle : index ≤ s.size) :
    s.nth? index = some (s.nth index : α) := by
  have hlt : index - 1 < s.values.length := Nat.lt_of_lt_of_le (by omega) hle
  rw [nth?, nth, List.getElem?_eq_getElem hlt, List.getD_eq_getElem _ _ hlt, Option.map_some]

theorem quantile?_eq (q : α) : s.quantile? q = some (s.quantile q) := by
  simp only [quantile?, quantile]
  split_ifs with hempty hfirst hlast
  · rfl
  · exact nth?_of_mem s (le_refl 1) (by omega)
  · exact nth?_of_mem s (by omega) (le_refl _)
  · rw [nth?_of_mem s (by omega) (by omega), nth?_of_mem s (by omega) (by omega)]
    rfl

end

structure FollowsLine (K : Type) [Field K] [LinearOrder K] [FloorSemiring K] (s : Sample) : Prop where
  rises : Monotone (s.quantile : K → K)
  clamped (q : K) : s.quantile q = s.quantile (0 ⊔ q ⊓ 1)
  before (q : K) : q * (s.size + 1) ≤ 1 → s.quantile q = s.min.toInt
  after (q : K) : s.size ≤ q * (s.size + 1) → s.quantile q = s.max.toInt
  extremes (q : K) : s.quantile q ∈ Set.Icc (s.min.toInt : K) s.max.toInt
  atValue (k : Nat) (v : Int64) : s.values[k]? = some v → s.quantile ((k + 1 : K) / (s.size + 1)) = v.toInt
  between (k : Nat) (v v' : Int64) (q : K) : s.values[k]? = some v → s.values[k + 1]? = some v' →
    q * (s.size + 1) ∈ Set.Icc (k + 1 : K) (k + 2) →
    s.quantile q = v.toInt + (q * (s.size + 1) - (k + 1)) * (v'.toInt - v.toInt)
  reported : (percentiles.map fun p : String × K => s.quantile p.2).Pairwise (· ≤ ·)

section

variable [IsStrictOrderedRing K] {s}

theorem quantile_mono (hsorted : s.values.Pairwise (· ≤ ·)) : Monotone (s.quantile : K → K) := by
  intro q q' hle
  rw [quantile_eq, quantile_eq]
  have hpos : (0 : K) ≤ s.size + 1 := s.size.cast_add_one_pos.le
  apply lineThrough_mono (nth_mono s hsorted)
  · exact mul_nonneg (clampToUnit_nonneg q) hpos
  · exact mul_le_mul_of_nonneg_right (clampToUnit_mono hle) hpos

theorem quantile_of_position {q x : K} (hposition : q * (s.size + 1) = x) (hx : x ∈ Set.Icc 0 (s.size + 1 : K)) :
    s.quantile q = lineThrough s.nth x := by
  subst hposition
  have hpos : (0 : K) < s.size + 1 := s.size.cast_add_one_pos
  have hunit : q ∈ Set.Icc 0 1 := ⟨nonneg_of_mul_nonneg_left hx.1 hpos, (mul_le_iff_le_one_left hpos).mp hx.2⟩
  rw [quantile_eq, clampToUnit_of_mem hunit]

theorem quantile_before {q : K} (h : q * (s.size + 1) ≤ 1) : s.quantile q = s.min.toInt := by
  have hsize : (0 : K) ≤ s.size := s.size.cast_nonneg
  rcases le_total q 0 with hneg | hpos
  · rw [quantile_eq, clampToUnit_of_nonpos hneg, zero_mul, ← Nat.cast_zero, lineThrough_natCast, nth_zero_eq_min]
  · have hx : 0 ≤ q * (s.size + 1) := mul_nonneg hpos (by linarith)
    rw [quantile_of_position rfl ⟨hx, by linarith⟩,
      lineThrough_of_mem s.nth (k := 0) (by simpa using hx) (by simpa using h), ← nth_zero, sub_self, mul_zero, add_zero,
      nth_zero_eq_min]

theorem quantile_after {q : K} (h : s.size ≤ q * (s.size + 1)) : s.quantile q = s.max.toInt := by
  have hsize : (0 : K) ≤ s.size := s.size.cast_nonneg
  have hlast := nth_of_size_le (K := K) s (le_refl s.size)
  have hnext := nth_of_size_le (K := K) s (Nat.le_succ s.size)
  rcases le_total q 1 with hle | hbig
  · have hx : q * (s.size + 1) ≤ s.size + 1 := mul_le_of_le_one_left (by linarith) hle
    rw [quantile_of_position rfl ⟨by linarith, hx⟩, lineThrough_of_mem s.nth h hx, hnext, hlast, sub_self, mul_zero,
      add_zero]
  · rw [quantile_eq, clampToUnit_of_one_le hbig, one_mul, ← Nat.cast_add_one, lineThrough_natCast, hnext]

theorem quantile_at_value {k : Nat} {v : Int64} (h : s.values[k]? = some v) :
    s.quantile ((k + 1 : K) / (s.size + 1)) = v.toInt := by
  have hposition : (k + 1 : K) / (s.size + 1) * (s.size + 1) = (k + 1 : Nat) := by
    rw [div_mul_cancel₀ _ s.size.cast_add_one_ne_zero, Nat.cast_add_one]
  rw [quantile_of_position hposition, lineThrough_natCast, nth_of_getElem? s h]
  have hle : ((k + 1 : Nat) : K) ≤ s.size := Nat.cast_le.mpr (lt_size_of_getElem? h)
  exact ⟨Nat.cast_nonneg _, by linarith⟩

theorem quantile_between {k : Nat} {v v' : Int64} {q : K} (h : s.values[k]? = some v) (h' : s.values[k + 1]? = some v')
    (hq : q * (s.size + 1) ∈ Set.Icc (k + 1 : K) (k + 2)) :
    s.quantile q = v.toInt + (q * (s.size + 1) - (k + 1)) * (v'.toInt - v.toInt) := by
  obtain ⟨hlow, hhigh⟩ := hq
  have hle : ((k + 1 + 1 : Nat) : K) ≤ s.size := Nat.cast_le.mpr (lt_size_of_getElem? h')
  have hk : (0 : K) ≤ k := k.cast_nonneg
  push_cast at hle
  rw [quantile_of_position rfl ⟨by linarith, by linarith⟩,
    lineThrough_of_mem s.nth (k := k + 1) (by push_cast; exact hlow) (by push_cast; linarith), nth_of_getElem? s h,
    nth_of_getElem? s h']
  push_cast
  ring

theorem percentiles_ascending : (percentiles : List (String × K)).Pairwise fun p p' => p.2 ≤ p'.2 := by
  norm_num [percentiles]

theorem followsLine (hsorted : s.values.Pairwise (· ≤ ·)) : s.FollowsLine K where
  rises := quantile_mono hsorted
  clamped q := by
    have hunit : clampToUnit q ∈ Set.Icc 0 1 := ⟨clampToUnit_nonneg q, clampToUnit_le_one q⟩
    rw [← clampToUnit_eq, quantile_eq, quantile_eq, clampToUnit_of_mem hunit]
  before q h := quantile_before h
  after q h := quantile_after h
  extremes q := by
    have hpos : (0 : K) ≤ s.size + 1 := s.size.cast_add_one_pos.le
    have hlow : s.quantile (0 ⊓ q) = s.min.toInt := by
      apply quantile_before
      exact (mul_nonpos_of_nonpos_of_nonneg inf_le_left hpos).trans zero_le_one
    have hhigh : s.quantile (1 ⊔ q) = s.max.toInt := by
      apply quantile_after
      exact (le_add_of_nonneg_right zero_le_one).trans (le_mul_of_one_le_left hpos le_sup_left)
    rw [← hlow, ← hhigh]
    exact ⟨quantile_mono hsorted inf_le_right, quantile_mono hsorted le_sup_right⟩
  atValue k v h := quantile_at_value h
  between k v v' q h h' hq := quantile_between h h' hq
  reported := by
    rw [List.pairwise_map]
    exact percentiles_ascending.imp fun h => quantile_mono hsorted h

end

/-- The statistics of any values are taken of them in ascending order, and every quantile looks up values that are
there. If nothing is rounded, the quantiles rise from the least value to the greatest along the line that joins the
values at equal distances, and so do those that are reported. -/
theorem quantiles_follow_line [IsStrictOrderedRing K] (values : List Int64) :
    let s := ofList values
    s.values.Perm values ∧ s.values.Pairwise (· ≤ ·) ∧
      (∀ h : s.values ≠ [], s.min = s.values.head h ∧ s.max = s.values.getLast h) ∧
      s.FollowsLine K ∧
      ∀ {α : Type} [Scalar α] (q : α), s.quantile? q = some (s.quantile q) := by
  intro s
  have hsorted := pairwise_ofList values
  exact ⟨perm_ofList values, hsorted, extremes_of_ne_nil s, followsLine hsorted, fun q => s.quantile?_eq q⟩

theorem quantiles_follow_line_of_five :
    let s := ofList [5, -2, 2, 3, 4]
    s.quantile (0.5 : ℚ) = 3 ∧ s.quantile (0.75 : ℚ) = 4.5 ∧ s.quantile (7 : ℚ) = 5 := by
  intro s
  obtain ⟨hperm, hsorted, -, hline, -⟩ := quantiles_follow_line (K := ℚ) [5, -2, 2, 3, 4]
  have hvalues : s.values = [-2, 2, 3, 4, 5] := by
    apply (hperm.trans (by decide)).eq_of_pairwise _ hsorted (by decide)
    intro v v' _ _
    exact Int64.le_antisymm
  have hget (k : Nat) : s.values[k]? = [-2, 2, 3, 4, 5][k]? := by rw [hvalues]
  have hsize : s.size = 5 := congrArg List.length hvalues
  have hmiddle := hline.atValue 2 3 (hget 2)
  have hbetween := hline.between 3 4 5 0.75 (hget 3) (hget 4)
  have hafter := hline.after 7
  have hmax : s.max = 5 := by
    rw [max, hvalues]
    rfl
  rw [show (3 : Int64).toInt = 3 from rfl] at hmiddle
  rw [show (4 : Int64).toInt = 4 from rfl, show (5 : Int64).toInt = 5 from rfl] at hbetween
  rw [hsize] at hmiddle hbetween hafter
  refine ⟨?_, ?_, ?_⟩
  · norm_num at hmiddle ⊢
    exact hmiddle
  · rw [hbetween (by norm_num)]
    norm_num
  · rw [hafter (by norm_num), hmax]
    rfl

end Sample

end MetricReporting
