import Mathlib.Algebra.BigOperators.Intervals
import Mathlib.Algebra.Order.Archimedean.Real.Basic
import Mathlib.Analysis.Complex.Exponential
import Mathlib.Data.List.GetD
import Mathlib.Tactic.Linarith
import MetricReporting.Proofs.ExactScalars
import MetricReporting.Proofs.TickHistory

namespace MetricReporting

namespace MovingAverage

/-- The mean of the counts of some intervals, in events per second. The first count enters as it is, every later one with
the smoothing as its weight, and each has lost the same share with every interval since. -/
noncomputable def weightedMean (smoothing : ℝ) (counts : List Int) : ℝ :=
  let perSecond (i : Nat) : ℝ := (counts.getD (i - 1) 0 : Int) / 5
  (1 - smoothing) ^ (counts.length - 1) * perSecond 1 +
    ∑ i ∈ Finset.Icc 2 counts.length, smoothing * (1 - smoothing) ^ (counts.length - i) * perSecond i

section

variable (smoothing : ℝ)

theorem weightedMean_singleton (c : Int) : weightedMean smoothing [c] = c / 5 := by
  simp [weightedMean]

theorem weightedMean_concat {counts : List Int} (hne : counts ≠ []) (c : Int) :
    weightedMean smoothing (counts ++ [c]) =
      weightedMean smoothing counts + smoothing * (c / 5 - weightedMean smoothing counts) := by
  obtain ⟨k, hk⟩ : ∃ k, counts.length = k + 1 := Nat.exists_eq_succ_of_ne_zero (mt List.length_eq_zero_iff.mp hne)
  have hold : ∀ i ≤ k + 1, 1 ≤ i → (counts ++ [c]).getD (i - 1) 0 = counts.getD (i - 1) 0 := by
    intro i hi hpos
    rw [List.getD_append _ _ _ _ (by omega)]
  have hnew : (counts ++ [c]).getD (k + 1 + 1 - 1) 0 = c := by
    rw [List.getD_append_right _ _ _ _ (by omega), hk]
    simp
  -- All terms but the new one are those of the old mean, with one factor more.
  have hterms : ∑ i ∈ Finset.Icc 2 (k + 1), smoothing * (1 - smoothing) ^ (k + 1 + 1 - i) *
        (((counts ++ [c]).getD (i - 1) 0 : Int) / 5) =
      (1 - smoothing) * ∑ i ∈ Finset.Icc 2 (k + 1), smoothing * (1 - smoothing) ^ (k + 1 - i) *
        ((counts.getD (i - 1) 0 : Int) / 5) := by
    rw [Finset.mul_sum]
    apply Finset.sum_congr rfl
    intro i hi
    obtain ⟨htwo, hle⟩ := Finset.mem_Icc.mp hi
    rw [hold i hle (by omega), show k + 1 + 1 - i = (k + 1 - i) + 1 by omega, pow_succ]
    ring
  simp only [weightedMean, List.length_append, List.length_singleton, hk]
  rw [Finset.sum_Icc_succ_top (by omega), hterms, hnew, hold 1 (by omega) (le_refl 1)]
  simp only [Nat.sub_self, Nat.add_sub_cancel]
  ring

theorem weightedMean_concat_zero (counts : List Int) :
    weightedMean smoothing (counts ++ [0]) = (1 - smoothing) * weightedMean smoothing counts := by
  rcases eq_or_ne counts [] with rfl | hne
  · simp [weightedMean]
  · rw [weightedMean_concat smoothing hne]
    push_cast
    ring

theorem weightedMean_idle (first : Int) (idle : Nat) :
    weightedMean smoothing (first :: List.replicate idle 0) = (1 - smoothing) ^ idle * (first / 5) := by
  induction idle with
  | zero => simp [weightedMean_singleton]
  | succ k ih =>
    rw [List.replicate_succ', ← List.cons_append, weightedMean_concat_zero, ih, pow_succ]
    ring

variable {smoothing}

theorem weightedMean_mem_Icc (hsmoothing : smoothing ∈ Set.Ioo 0 1) {smallest largest : Int} {counts : List Int}
    (hne : counts ≠ []) (h : ∀ c ∈ counts, smallest ≤ c ∧ c ≤ largest) :
    weightedMean smoothing counts ∈ Set.Icc (smallest / 5 : ℝ) (largest / 5) := by
  obtain ⟨hpos, hlt⟩ := hsmoothing
  induction counts using List.reverseRecOn with
  | nil => exact absurd rfl hne
  | append_singleton before c ih =>
    obtain ⟨hmin, hmax⟩ := h c (by simp)
    have hlow : (smallest : ℝ) ≤ c := Int.cast_le.mpr hmin
    have hhigh : (c : ℝ) ≤ largest := Int.cast_le.mpr hmax
    rcases eq_or_ne before [] with rfl | hbefore
    · rw [List.nil_append, weightedMean_singleton]
      constructor <;> linarith
    · obtain ⟨hbelow, habove⟩ := ih hbefore fun c hc => h c (List.mem_append_left _ hc)
      rw [weightedMean_concat smoothing hbefore]
      constructor <;> nlinarith

theorem weightedMean_mem_Icc_extremes (hsmoothing : smoothing ∈ Set.Ioo 0 1) {smallest largest : Int} {counts : List Int}
    (hmin : counts.min? = some smallest) (hmax : counts.max? = some largest) :
    weightedMean smoothing counts ∈ Set.Icc (smallest / 5 : ℝ) (largest / 5) := by
  obtain ⟨hmem, hleast⟩ := List.min?_eq_some_iff.mp hmin
  obtain ⟨-, hgreatest⟩ := List.max?_eq_some_iff.mp hmax
  exact weightedMean_mem_Icc hsmoothing (List.ne_nil_of_mem hmem) fun c hc => ⟨hleast c hc, hgreatest c hc⟩

end

theorem perSecond_eq (a : MovingAverage ℝ) : a.perSecond = a.rate.getD 0 * 1000000000 := by
  show a.rate.getD ((0 : Nat) : ℝ) * ((1000000000 : Nat) : ℝ) = _
  push_cast
  rfl

theorem perSecond_tick_of_none {a : MovingAverage ℝ} (h : a.rate = none) :
    a.tick.perSecond = a.sinceTick.toInt / 5 := by
  have hrate : a.tick.rate = some ((a.sinceTick.toInt : ℝ) / (tickNanos : Nat)) := by
    simp only [tick, h]
    rfl
  rw [perSecond_eq, hrate, Option.getD_some, tickNanos]
  push_cast
  ring

theorem perSecond_tick_of_some {a : MovingAverage ℝ} {r : ℝ} (h : a.rate = some r) :
    a.tick.perSecond = a.perSecond + a.smoothing * (a.sinceTick.toInt / 5 - a.perSecond) := by
  have hrate : a.tick.rate = some (r + a.smoothing * ((a.sinceTick.toInt : ℝ) / (tickNanos : Nat) - r)) := by
    simp only [tick, h]
    rfl
  rw [perSecond_eq, perSecond_eq, hrate, h, Option.getD_some, Option.getD_some, tickNanos]
  push_cast
  ring

theorem perSecond_tick_of_idle {a : MovingAverage ℝ} (h : a.sinceTick = 0) :
    a.tick.perSecond = (1 - a.smoothing) * a.perSecond := by
  cases hrate : a.rate with
  | none =>
    rw [perSecond_tick_of_none hrate, perSecond_eq, hrate, h]
    simp
  | some r =>
    rw [perSecond_tick_of_some hrate, h, Int64.toInt_zero]
    push_cast
    ring

theorem perSecond_ticks_of_idle {a : MovingAverage ℝ} (h : a.sinceTick = 0) (k : Nat) :
    (a.ticks k).perSecond = (1 - a.smoothing) ^ k * a.perSecond := by
  induction k generalizing a with
  | zero => rw [ticks_zero, pow_zero, one_mul]
  | succ k ih =>
    have hticked : (a.tick.ticks k).perSecond = (1 - a.smoothing) ^ k * a.tick.perSecond := ih rfl
    rw [ticks_succ, hticked, perSecond_tick_of_idle h, pow_succ, mul_assoc]

theorem perSecond_countAll (a : MovingAverage ℝ) (ns : List Int64) : (a.countAll ns).perSecond = a.perSecond := by
  rw [perSecond_eq, perSecond_eq, rate_countAll]

theorem smoothing_countAll (a : MovingAverage ℝ) (ns : List Int64) : (a.countAll ns).smoothing = a.smoothing := by
  induction ns generalizing a with
  | nil => rfl
  | cons n rest ih => exact ih (a.count n)

theorem smoothing_through (a : MovingAverage ℝ) (intervals : List (List Int64)) :
    (a.through intervals).smoothing = a.smoothing := by
  induction intervals generalizing a with
  | nil => rfl
  | cons ns rest ih => exact (ih (a.countAll ns).tick).trans (a.smoothing_countAll ns)

theorem perSecond_through {a : MovingAverage ℝ} (hrate : a.rate = none) (hsince : a.sinceTick = 0)
    (intervals : List (List Int64)) :
    (a.through intervals).perSecond = weightedMean a.smoothing (intervals.map fun ns => ns.sum.toInt) := by
  induction intervals using List.reverseRecOn with
  | nil => simp [through, perSecond_eq, hrate, weightedMean]
  | append_singleton before ns ih =>
    have hlast : a.through (before ++ [ns]) = ((a.through before).countAll ns).tick := a.through_append before [ns]
    have hcounted : ((a.through before).countAll ns).sinceTick = ns.sum := by
      rw [sinceTick_countAll, sinceTick_through a hsince, Int64.zero_add]
    have hkept := (a.through before).rate_countAll ns
    rw [hlast, List.map_append, List.map_singleton]
    rcases eq_or_ne before [] with rfl | hne
    · rw [perSecond_tick_of_none (hkept.trans hrate), hcounted]
      exact (weightedMean_singleton _ _).symm
    · have hsome := (isSome_rate_through_iff a before hrate).mpr (List.length_pos_of_ne_nil hne)
      obtain ⟨r, hr⟩ := Option.isSome_iff_exists.mp hsome
      rw [perSecond_tick_of_some (hkept.trans hr), hcounted, perSecond_countAll, smoothing_countAll, smoothing_through, ih,
        weightedMean_concat _ (by simpa using hne)]

end MovingAverage

namespace Ledger

def counts (b : Ledger) : List Int := b.intervals.map fun ns => ns.sum.toInt

theorem total_nonneg {ns : List Int64} (h : ∀ n ∈ ns, 0 ≤ n) : 0 ≤ total ns := by
  induction ns with
  | nil => exact le_refl 0
  | cons n rest ih =>
    obtain ⟨hn, hrest⟩ := List.forall_mem_cons.mp h
    have hone : 0 ≤ n.toInt := Int64.le_iff_toInt_le.mp hn
    exact Int.add_nonneg hone (ih hrest)

end Ledger

namespace Meter

open MovingAverage

def books {α : Type} [Scalar α] (m : Meter α) (uses : List (Nat × Use)) (now : Nat) : Ledger :=
  (m.ledgerFrom {} uses).close ((m.usedFor uses).ticksDue now)

theorem smoothingOver_eq (minutes : Nat) : smoothingOver Real.exp minutes = 1 - Real.exp (-(1 / 12) / minutes) := by
  have hseconds : ((0 : Nat) : ℝ) - ((tickNanos : Nat) : ℝ) / ((1000000000 : Nat) : ℝ) = -5 := by
    rw [tickNanos]
    norm_num
  show ((1 : Nat) : ℝ) - Real.exp ((((0 : Nat) : ℝ) - ((tickNanos : Nat) : ℝ) / ((1000000000 : Nat) : ℝ)) /
    ((60 : Nat) : ℝ) / (minutes : ℝ)) = _
  rw [hseconds]
  norm_num

theorem smoothingOver_mem_Ioo {minutes : Nat} (h : 0 < minutes) : smoothingOver Real.exp minutes ∈ Set.Ioo 0 1 := by
  have hpos : (0 : ℝ) < minutes := Nat.cast_pos.mpr h
  have hneg : -(1 / 12) / (minutes : ℝ) < 0 := div_neg_of_neg_of_pos (by norm_num) hpos
  have hlt := Real.exp_lt_one_iff.mpr hneg
  have hexp := Real.exp_pos (-(1 / 12) / (minutes : ℝ))
  rw [smoothingOver_eq]
  constructor <;> linarith

theorem smoothingOver_anti {minutes longer : Nat} (h : 0 < minutes) (hle : minutes ≤ longer) :
    smoothingOver Real.exp longer ≤ smoothingOver Real.exp minutes := by
  have hpos : (0 : ℝ) < minutes := Nat.cast_pos.mpr h
  have hcast : (minutes : ℝ) ≤ longer := Nat.cast_le.mpr hle
  have hdecay : -(1 / 12) / (minutes : ℝ) ≤ -(1 / 12) / longer := by
    rw [neg_div, neg_div, neg_le_neg_iff]
    exact div_le_div_of_nonneg_left (by norm_num) hpos hcast
  have hexp := Real.exp_le_exp.mpr hdecay
  rw [smoothingOver_eq, smoothingOver_eq]
  linarith

theorem isNew_startedWith {α : Type} [Scalar α] (exp : α → α) (now : Nat) : (startedWith exp now).IsNew now := by
  constructor
  · rfl
  · rfl
  · rfl
  · intro h
    cases h <;> rfl
  · intro h
    cases h <;> rfl

theorem smoothing_startedWith_mem_Ioo (now : Nat) (h : Horizon) :
    ((startedWith Real.exp now).average h).smoothing ∈ Set.Ioo 0 1 := by
  cases h with
  | m1 => exact smoothingOver_mem_Ioo (by decide)
  | m5 => exact smoothingOver_mem_Ioo (by decide)
  | m15 => exact smoothingOver_mem_Ioo (by decide)

structure AreMeans (rate : Horizon → ℝ) (smoothing : Horizon → ℝ) (counts : List Int) : Prop where
  mean (h : Horizon) : counts ≠ [] → rate h = weightedMean (smoothing h) counts
  blank (h : Horizon) : counts = [] → rate h = 0
  nonneg (h : Horizon) : (∀ c ∈ counts, 0 ≤ c) → 0 ≤ rate h
  le_largest (h : Horizon) (largest : Int) : counts.max? = some largest → rate h ≤ largest / 5
  slower (h h' : Horizon) (first : Int) (idle : Nat) : counts = first :: List.replicate idle 0 → 0 ≤ first →
    smoothing h' ≤ smoothing h → rate h ≤ rate h'

theorem areMeans_weightedMean {smoothing : Horizon → ℝ} (hsmoothing : ∀ h, smoothing h ∈ Set.Ioo 0 1)
    (counts : List Int) : AreMeans (fun h => weightedMean (smoothing h) counts) smoothing counts where
  mean _ _ := rfl
  blank h hempty := by simp [hempty, weightedMean]
  nonneg h hcounts := by
    rcases eq_or_ne counts [] with rfl | hne
    · simp [weightedMean]
    · obtain ⟨smallest, hmin⟩ := Option.isSome_iff_exists.mp (List.isSome_min?_of_ne_nil hne)
      obtain ⟨largest, hmax⟩ := Option.isSome_iff_exists.mp (List.isSome_max?_of_ne_nil hne)
      have hpos : (0 : ℝ) ≤ smallest := Int.cast_nonneg (hcounts _ (List.min?_eq_some_iff.mp hmin).1)
      have hle := (weightedMean_mem_Icc_extremes (hsmoothing h) hmin hmax).1
      linarith
  le_largest h largest hmax := by
    have hne := List.ne_nil_of_mem (List.max?_eq_some_iff.mp hmax).1
    obtain ⟨smallest, hmin⟩ := Option.isSome_iff_exists.mp (List.isSome_min?_of_ne_nil hne)
    exact (weightedMean_mem_Icc_extremes (hsmoothing h) hmin hmax).2
  slower h h' first idle hcounts hfirst hle := by
    have hpos : (0 : ℝ) ≤ first / 5 := div_nonneg (Int.cast_nonneg hfirst) (by norm_num)
    have hkept : 0 ≤ 1 - smoothing h := by linarith [(hsmoothing h).2]
    simp only [hcounts, weightedMean_idle]
    gcongr

/-- The rates that are read of a meter at some instant are the weighted means of the counts that its ticks up to there
have taken in. From there on each tick without events leaves the share of a rate that it does not take in. Unless a mark
has poisoned the meter, these counts are the numbers of events, so the rates are not negative if nobody marks less than
nothing; and while only the first interval has had events, the average that reaches back longest is the greatest. -/
theorem rates_are_weighted_means (m : Meter ℝ) (start : Nat) (uses : List (Nat × Use)) (now : Nat)
    (hnew : m.IsNew start) (hsmoothing : ∀ h, (m.average h).smoothing ∈ Set.Ioo 0 1) :
    let b := m.books uses now
    let caught := (m.usedFor uses).tickUpTo now
    let rate (h : Horizon) := ((m.usedFor uses).readRate now h).1
    b.entries = (marks uses).map Prod.snd ∧
      (∀ h, caught.average h = ((m.average h).through b.intervals).countAll b.pending) ∧
      AreMeans rate (fun h => (m.average h).smoothing) b.counts ∧
      (∀ h later, b.pending.sum = 0 →
        (caught.readRate later h).1 = (1 - (m.average h).smoothing) ^ caught.ticksDue later * rate h) ∧
      (caught.poisoned = false →
        b.counts = b.intervals.map Ledger.total ∧ ((∀ n ∈ b.entries, 0 ≤ n) → ∀ h, 0 ≤ rate h)) ∧
      (m = startedWith Real.exp start → ∀ first idle, b.counts = first :: List.replicate idle 0 → 0 ≤ first →
        rate .m1 ≤ rate .m5 ∧ rate .m5 ≤ rate .m15) := by
  intro b caught rate
  have hagrees : Agrees m caught b := ((Agrees.refl m).usedFor uses).tickUpTo now
  have hentries : b.entries = (marks uses).map Prod.snd :=
    (Ledger.entries_close _ _).trans (m.entries_ledgerFrom {} uses)
  have hrate (h : Horizon) : rate h = weightedMean (m.average h).smoothing b.counts := by
    have hread : rate h = (caught.average h).perSecond := rfl
    rw [hread, hagrees.average, perSecond_countAll, perSecond_through (hnew.rate h) (hnew.sinceTick h)]
    rfl
  have hmeans : AreMeans rate (fun h => (m.average h).smoothing) b.counts := by
    rw [funext hrate]
    exact areMeans_weightedMean hsmoothing b.counts
  refine ⟨hentries, hagrees.average, hmeans, ?_, ?_, ?_⟩
  · intro h later hpending
    have hsince : (caught.average h).sinceTick = 0 := (hagrees.sinceTick hnew.sinceTick h).trans hpending
    have hkept : (caught.average h).smoothing = (m.average h).smoothing := by
      rw [hagrees.average, smoothing_countAll, smoothing_through]
    have hread : (caught.readRate later h).1 = ((caught.average h).ticks (caught.ticksDue later)).perSecond := by
      rw [readRate, tickUpTo_eq, average_tickTimes]
    rw [hread, perSecond_ticks_of_idle hsince, hkept]
    rfl
  · intro hsound
    have hfit := (sumsFit_of_sound ((poisoned_tickUpTo _ now).symm.trans hsound)).2
    have hledger := exact_ledgerFrom uses (Agrees.refl m) hnew.count hnew.sinceTick ⟨rfl, List.forall_mem_nil _, rfl⟩ hfit
    have hcounts : b.counts = b.intervals.map Ledger.total := List.map_congr_left (hledger.close _).intervals
    refine ⟨hcounts, fun hpos h => hmeans.nonneg h ?_⟩
    rw [hcounts, List.forall_mem_map]
    intro ns hns
    apply Ledger.total_nonneg
    intro n hn
    exact hpos n (List.mem_append_left _ (List.mem_flatten.mpr ⟨ns, hns, hn⟩))
  · rintro rfl first idle hcounts hfirst
    constructor
    · exact hmeans.slower .m1 .m5 first idle hcounts hfirst (smoothingOver_anti (by decide) (by decide))
    · exact hmeans.slower .m5 .m15 first idle hcounts hfirst (smoothingOver_anti (by decide) (by decide))

theorem rates_are_weighted_means_after_seven_events :
    let m := startedWith Real.exp 0
    let uses : List (Nat × Use) := [(0, .mark 3), (1, .mark 4), (6000000000, .read .m5)]
    let caught := (m.usedFor uses).tickUpTo 21000000000
    let rate (h : Horizon) := ((m.usedFor uses).readRate 21000000000 h).1
    m.IsNew 0 ∧ (∀ h, (m.average h).smoothing ∈ Set.Ioo 0 1) ∧ (m.books uses 21000000000).counts = [7, 0, 0, 0] ∧
      rate .m1 = (1 - m.m1.smoothing) ^ 3 * (7 / 5) ∧ 0 ≤ rate .m1 ∧ rate .m1 ≤ rate .m5 ∧ rate .m5 ≤ rate .m15 ∧
      rate .m15 ≤ 7 / 5 ∧ (caught.readRate 33000000000 .m1).1 = (1 - m.m1.smoothing) ^ 2 * rate .m1 := by
  intro m uses caught rate
  have hnew := isNew_startedWith Real.exp 0
  have hsmoothing := smoothing_startedWith_mem_Ioo 0
  have hcounts : (m.books uses 21000000000).counts = [7, 0, 0, 0] := by decide
  have hsound : caught.poisoned = false := by decide
  obtain ⟨hentries, -, hmeans, hidle, hexact, hordered⟩ :=
    rates_are_weighted_means m 0 uses 21000000000 hnew hsmoothing
  have hrate : rate .m1 = (1 - m.m1.smoothing) ^ 3 * ((7 : Int) / 5) := by
    rw [← weightedMean_idle]
    have hmean := hmeans.mean .m1 (by rw [hcounts]; decide)
    rw [hcounts] at hmean
    exact hmean
  rw [Int.cast_ofNat] at hrate
  rw [show (marks uses).map Prod.snd = [3, 4] from rfl] at hentries
  have hpos : 0 ≤ rate .m1 := (hexact hsound).2 (by rw [hentries]; simp) .m1
  obtain ⟨hfast, hslow⟩ := hordered rfl 7 3 hcounts (by decide)
  have hmost := hmeans.le_largest .m15 7 (by rw [hcounts]; decide)
  rw [Int.cast_ofNat] at hmost
  have hlater := hidle .m1 33000000000 (by decide)
  have hdue : caught.ticksDue 33000000000 = 2 := by decide
  rw [hdue] at hlater
  exact ⟨hnew, hsmoothing, hcounts, hrate, hpos, hfast, hslow, hmost, hlater⟩

end Meter

end MetricReporting
