import MetricReporting.Proofs.Actions
import MetricReporting.Proofs.LazyTicks
import MetricReporting.Report.Units

namespace MetricReporting

namespace Store

theorem objects_set_self {kind : Kind} (s : Store) (h : Handle kind) (o : kind.Object) :
    (s.set h o).objects kind = (s.objects kind).setIfInBounds h.index o := objects_setObjects_self _ _ _

theorem get_set {kind : Kind} (s : Store) (h h' : Handle kind) (o : kind.Object) :
    (s.set h o).get h' = if h' = h ∧ h.index < (s.objects kind).size then o else s.get h' := by
  unfold get
  rw [objects_set_self, Array.getD_eq_getD_getElem?, Array.getD_eq_getD_getElem?, Array.getElem?_setIfInBounds]
  by_cases hi : h' = h
  · subst hi
    by_cases hlt : h'.index < (s.objects kind).size
    · simp [hlt]
    · simp [hlt]
  · have hne : h.index ≠ h'.index := by
      intro heq
      apply hi
      cases h
      cases h'
      cases heq
      rfl
    simp [hne, hi]

theorem set_set {kind : Kind} (s : Store) (h : Handle kind) (o o' : kind.Object) :
    (s.set h o).set h o' = s.set h o' := by
  have hall (a b : Array kind.Object) : (s.setObjects kind a).setObjects kind b = s.setObjects kind b := by
    cases kind <;> rfl
  rw [set, objects_set_self, set, hall, Array.setIfInBounds_setIfInBounds, set]

theorem set_of_not_lt {kind : Kind} (s : Store) {h : Handle kind} (o : kind.Object)
    (hout : ¬ h.index < (s.objects kind).size) : s.set h o = s := by
  rw [set, Array.setIfInBounds_eq_of_size_le (Nat.le_of_not_lt hout)]
  cases kind <;> rfl

theorem get_update {kind : Kind} {s : Store} {h : Handle kind} (hin : h.index < (s.objects kind).size)
    (f : kind.Object → kind.Object) : (s.update h f).get h = f (s.get h) := by
  rw [update, get_set, if_pos ⟨rfl, hin⟩]

theorem update_of_not_lt {kind : Kind} {s : Store} {h : Handle kind} (hout : ¬ h.index < (s.objects kind).size)
    (f : kind.Object → kind.Object) : s.update h f = s := s.set_of_not_lt _ hout

theorem update_update {kind : Kind} (s : Store) (h : Handle kind) (f g : kind.Object → kind.Object) :
    (s.update h f).update h g = s.update h (g ∘ f) := by
  by_cases hin : h.index < (s.objects kind).size
  · rw [update, get_update hin, update, set_set]
    rfl
  · rw [update_of_not_lt hin, update_of_not_lt hin, update_of_not_lt hin]

theorem get_set_of_kind_ne {kind other : Kind} (s : Store) (h : Handle kind) (o : kind.Object) (h' : Handle other)
    (hk : kind ≠ other) : (s.set h o).get h' = s.get h' := by
  unfold get set
  rw [objects_setObjects_of_ne s _ hk]

theorem size_objects_set {kind : Kind} (s : Store) (h : Handle kind) (o : kind.Object) (other : Kind) :
    ((s.set h o).objects other).size = (s.objects other).size := by
  by_cases hk : kind = other
  · subst hk
    rw [objects_set_self, Array.size_setIfInBounds]
  · rw [set, objects_setObjects_of_ne s _ hk]

theorem get_add {kind other : Kind} (s : Store) (o : kind.Object) (h : Handle other)
    (hlt : h.index < (s.objects other).size) : (s.add o).2.get h = s.get h := by
  by_cases hk : kind = other
  · subst hk
    simp only [get, add, objects_setObjects_self, Array.getD_eq_getD_getElem?, Array.getElem?_push, Nat.ne_of_lt hlt,
      if_false]
  · simp only [get, add, objects_setObjects_of_ne s _ hk]

theorem size_objects_add_le {kind : Kind} (s : Store) (o : kind.Object) (other : Kind) :
    (s.objects other).size ≤ ((s.add o).2.objects other).size := by
  by_cases hk : kind = other
  · subst hk
    simp [add]
  · simp [add, objects_setObjects_of_ne s _ hk]

end Store

def Kind.countOf : (kind : Kind) → kind.Object → Option Int64
  | .gauge, _ => none
  | .counter, (c : Counter) => some c.count
  | .histogram, (o : Histogram) => some o.count
  | .meter, (m : Meter Float) => some m.count
  | .timer, (t : Timer Float) => some t.count

def Kind.isPoisoned : (kind : Kind) → kind.Object → Bool
  | .gauge, _ | .counter, _ | .histogram, _ => false
  | .meter, (m : Meter Float) => m.poisoned
  | .timer, (t : Timer Float) => t.meter.poisoned

namespace Metric

def isPoisoned (s : Store) (metric : Metric) : Bool := metric.kind.isPoisoned (s.get metric.handle)

def IsIn (s : Store) (metric : Metric) : Prop := metric.handle.index < (s.objects metric.kind).size

theorem count?_eq (metric : Metric) (s : Store) : metric.count? s = metric.kind.countOf (s.get metric.handle) := by
  obtain ⟨kind, h⟩ := metric
  cases kind <;> rfl

theorem count?_set {kind : Kind} (s : Store) (h : Handle kind) (o : kind.Object) (metric : Metric)
    (hin : metric.IsIn s) :
    metric.count? (s.set h o) = if metric = ⟨kind, h⟩ then kind.countOf o else metric.count? s := by
  obtain ⟨other, h'⟩ := metric
  rw [count?_eq, count?_eq]
  by_cases hk : kind = other
  · subst hk
    rw [Store.get_set]
    by_cases hh : h' = h
    · subst hh
      rw [if_pos ⟨rfl, hin⟩, if_pos rfl]
    · rw [if_neg (fun hand => hh hand.1), if_neg (fun heq => hh (by cases heq; rfl))]
  · rw [Store.get_set_of_kind_ne s h o h' hk, if_neg (fun heq => hk (by cases heq; rfl))]

end Metric

namespace Store

theorem isIn_add {kind : Kind} (s : Store) (object : kind.Object) :
    Metric.IsIn (s.add object).2 ⟨kind, (s.add object).1⟩ := by
  simp [Metric.IsIn, add]

theorem get_add_self {kind : Kind} (s : Store) (object : kind.Object) :
    (s.add object).2.get (s.add object).1 = object := by
  simp [get, add]

end Store

structure Store.SameCounts (s s' : Store) : Prop where
  size (kind : Kind) : (s'.objects kind).size = (s.objects kind).size
  count (metric : Metric) : metric.count? s' = metric.count? s
  poisoned (metric : Metric) : metric.isPoisoned s' = metric.isPoisoned s

namespace Store.SameCounts

theorem refl (s : Store) : s.SameCounts s := ⟨fun _ => rfl, fun _ => rfl, fun _ => rfl⟩

theorem trans {s s' s'' : Store} (h : s.SameCounts s') (h' : s'.SameCounts s'') : s.SameCounts s'' where
  size kind := (h'.size kind).trans (h.size kind)
  count metric := (h'.count metric).trans (h.count metric)
  poisoned metric := (h'.poisoned metric).trans (h.poisoned metric)

instance : IsPreorder Store SameCounts where
  refl := refl
  trans _ _ _ := trans

theorem isIn {s s' : Store} (h : s.SameCounts s') {metric : Metric} (hin : metric.IsIn s) : metric.IsIn s' := by
  rw [Metric.IsIn, h.size]
  exact hin

theorem of_objects_eq {s s' : Store} (h : s'.objects = s.objects) : s.SameCounts s' := by
  constructor
  · intro kind
    rw [h]
  · intro metric
    rw [Metric.count?_eq, Metric.count?_eq, get, get, h]
  · intro metric
    rw [Metric.isPoisoned, Metric.isPoisoned, get, get, h]

theorem setProbe (s : Store) (p : ProbeId) (probe : Probe) : s.SameCounts (s.setProbe p probe) :=
  of_objects_eq (by funext kind; cases kind <;> rfl)

theorem set {kind : Kind} (s : Store) (h : Handle kind) (o : kind.Object)
    (hcount : kind.countOf o = kind.countOf (s.get h)) (hpoisoned : kind.isPoisoned o = kind.isPoisoned (s.get h)) :
    s.SameCounts (s.set h o) := by
  have hsame {β : Type} (f : (kind : Kind) → kind.Object → β) (hf : f kind o = f kind (s.get h)) (metric : Metric) :
      f metric.kind ((s.set h o).get metric.handle) = f metric.kind (s.get metric.handle) := by
    obtain ⟨other, h'⟩ := metric
    by_cases hk : kind = other
    · subst hk
      rw [get_set]
      split
      · rename_i hself
        rw [hself.1, hf]
      · rfl
    · rw [get_set_of_kind_ne s h o h' hk]
  constructor
  · exact size_objects_set s h o
  · intro metric
    rw [Metric.count?_eq, Metric.count?_eq]
    exact hsame Kind.countOf hcount metric
  · exact hsame Kind.isPoisoned hpoisoned

end Store.SameCounts

theorem Histogram.count_update (h : Histogram) (value : Int64) : (h.update value).count = h.count + 1 := by
  unfold update
  split <;> rfl

theorem Word.holds_succ {k n : Nat} (hk : k ≤ n) (hn : n + 1 < Nat.pow 2 63) :
    Holds ((Int64.ofNat k).toInt + (1 : Int64).toInt) := by
  have hpow : Nat.pow 2 63 = 9223372036854775808 := rfl
  rw [holds_iff, Int64.toInt_ofNat_of_lt (by omega), Int64.toInt_one]
  omega

structure Meter.Counts {α : Type} (m : Meter α) (n : Nat) : Prop where
  count : m.count = Int64.ofNat n
  sinceTick (h : Horizon) : ∃ k ≤ n, (m.average h).sinceTick = Int64.ofNat k
  sound : n < Nat.pow 2 63 → m.poisoned = false

namespace Meter.Counts

variable {α : Type} {m : Meter α} {n : Nat}

theorem hasRoom (counts : m.Counts n) (few : n + 1 < Nat.pow 2 63) : m.HasRoom 1 := by
  have haverage (h : Horizon) : (m.average h).HasRoom 1 := by
    obtain ⟨k, hk, hsame⟩ := counts.sinceTick h
    rw [MovingAverage.HasRoom, hsame]
    exact Word.holds_succ hk few
  have hcount : Word.Holds (m.count.toInt + (1 : Int64).toInt) := by
    rw [counts.count]
    exact Word.holds_succ (Nat.le_refl _) few
  exact ⟨hcount, haverage .m1, haverage .m5, haverage .m15⟩

variable [Scalar α]

theorem startedWith (exp : α → α) (now : Nat) : (Meter.startedWith exp now).Counts 0 where
  count := rfl
  sinceTick h := ⟨0, Nat.le_refl 0, by cases h <;> rfl⟩
  sound _ := rfl

theorem tickUpTo (counts : m.Counts n) (now : Nat) : (m.tickUpTo now).Counts n where
  count := (count_tickUpTo m now).trans counts.count
  sinceTick h := by
    rw [tickUpTo_eq, average_tickTimes, MovingAverage.sinceTick_ticks]
    split
    · exact counts.sinceTick h
    · exact ⟨0, Nat.zero_le _, rfl⟩
  sound few := (poisoned_tickUpTo m now).trans (counts.sound few)

theorem mark (counts : m.Counts n) (now : Nat) : (m.mark now 1).Counts (n + 1) where
  count := by
    rw [count_mark, counts.count]
    exact (Int64.ofNat_add n 1).symm
  sinceTick h := by
    obtain ⟨k, hk, hsame⟩ := (counts.tickUpTo now).sinceTick h
    refine ⟨k + 1, Nat.succ_le_succ hk, ?_⟩
    rw [mark_eq, average_tally, MovingAverage.count, hsame]
    exact (Int64.ofNat_add k 1).symm
  sound few := by
    rw [poisoned_mark, counts.sound (Nat.lt_of_succ_lt few), decide_eq_true ((counts.tickUpTo now).hasRoom few)]
    rfl

end Meter.Counts

namespace Metered

variable {metered : Metered} {s : Store}

theorem hold_of_sound (h : (metered.get s).poisoned = false) : metered.hold s = ⟨.ok (metered.get s), s, []⟩ := by
  simp [hold, Action.bind_apply, Action.get, Action.pure_apply, h]

theorem hold_of_poisoned (h : (metered.get s).poisoned = true) : metered.hold s = ⟨.error (.panic poison), s, []⟩ := by
  simp [hold, Action.bind_apply, Action.get, Action.panic, Action.stop, h]

theorem readRate_of_sound (h : (metered.get s).poisoned = false) (horizon : Horizon) :
    metered.readRate horizon s =
      ⟨.ok ((metered.get s).readRate s.now horizon).1, metered.set s ((metered.get s).readRate s.now horizon).2, []⟩ := by
  rw [readRate, Action.bind_of_ok (by rw [hold_of_sound h]), hold_of_sound h]
  rfl

theorem readRate_of_poisoned (h : (metered.get s).poisoned = true) (horizon : Horizon) :
    metered.readRate horizon s = ⟨.error (.panic poison), s, []⟩ := by
  rw [readRate, Action.bind_of_error (by rw [hold_of_poisoned h]), hold_of_poisoned h]

theorem meanRate_of_sound (h : (metered.get s).poisoned = false) :
    metered.meanRate s = ⟨.ok ((metered.get s).meanRate s.now), s, []⟩ := by
  rw [meanRate, Action.bind_of_ok (by rw [hold_of_sound h]), hold_of_sound h]
  rfl

theorem meanRate_of_poisoned (h : (metered.get s).poisoned = true) :
    metered.meanRate s = ⟨.error (.panic poison), s, []⟩ := by
  rw [meanRate, Action.bind_of_error (by rw [hold_of_poisoned h]), hold_of_poisoned h]

theorem state_meanRate (metered : Metered) (s : Store) : (metered.meanRate s).state = s := by
  cases h : (metered.get s).poisoned with
  | false => rw [meanRate_of_sound h]
  | true => rw [meanRate_of_poisoned h]

theorem mark_ends (metered : Metered) (n : Int64) (s : Store) :
    ∃ result, (metered.mark n s).Ends result (metered.set s ((metered.get s).mark s.now n)) ∧
      (((metered.get s).mark s.now n).poisoned = false → result = .ok ()) := by
  have hset : (Action.set (metered.set s ((metered.get s).mark s.now n)) s).Ends (.ok ())
      (metered.set s ((metered.get s).mark s.now n)) := ⟨rfl, rfl⟩
  cases hbefore : (metered.get s).poisoned with
  | true =>
    have hafter : ((metered.get s).mark s.now n).poisoned = true := by
      rw [Meter.poisoned_mark, hbefore, Bool.true_or]
    refine ⟨.error (.panic poison), .bind_ok ⟨rfl, rfl⟩ (hset.bind_ok ?_), fun hsound => ?_⟩
    · rw [if_pos hbefore]
      exact ⟨rfl, rfl⟩
    · rw [hafter] at hsound
      cases hsound
  | false =>
    cases hafter : ((metered.get s).mark s.now n).poisoned with
    | true =>
      refine ⟨.error (.panic Word.addOverflow), .bind_ok ⟨rfl, rfl⟩ (hset.bind_ok ?_), nofun⟩
      rw [if_neg (ne_true_of_eq_false hbefore), if_pos hafter]
      exact ⟨rfl, rfl⟩
    | false =>
      refine ⟨.ok (), .bind_ok ⟨rfl, rfl⟩ (hset.bind_ok ?_), fun _ => rfl⟩
      rw [if_neg (ne_true_of_eq_false hbefore), if_neg (ne_true_of_eq_false hafter)]
      exact ⟨rfl, rfl⟩

theorem state_mark (metered : Metered) (n : Int64) (s : Store) :
    (metered.mark n s).state = metered.set s ((metered.get s).mark s.now n) := by
  obtain ⟨-, ⟨-, hstate⟩, -⟩ := metered.mark_ends n s
  exact hstate

theorem state_hold (metered : Metered) (s : Store) : (metered.hold s).state = s := by
  cases h : (metered.get s).poisoned with
  | false => rw [hold_of_sound h]
  | true => rw [hold_of_poisoned h]

theorem eq_of_hold {m : Meter Float} (h : (metered.hold s).result = .ok m) : m = metered.get s := by
  cases hpoisoned : (metered.get s).poisoned with
  | false =>
    rw [hold_of_sound hpoisoned] at h
    exact (Except.ok.inj h).symm
  | true =>
    rw [hold_of_poisoned hpoisoned] at h
    cases h

theorem keeps_hold {R : Store → Store → Prop} [IsPreorder Store R] (metered : Metered) :
    Action.Keeps R metered.hold := by
  intro s
  rw [state_hold]
  exact Std.Refl.refl s

theorem get_gauge_set (metered : Metered) (s : Store) (m : Meter Float) (h : Handle .gauge) :
    (metered.set s m).get h = s.get h := by
  cases metered with
  | meter h' => exact Store.get_set_of_kind_ne s h' _ h (by decide)
  | timer h' => exact Store.get_set_of_kind_ne s h' _ h (by decide)

theorem state_readRate (metered : Metered) (horizon : Horizon) (s : Store) :
    (metered.readRate horizon s).state =
      if (metered.get s).poisoned then s else metered.set s ((metered.get s).tickUpTo s.now) := by
  cases h : (metered.get s).poisoned with
  | false =>
    rw [readRate_of_sound h]
    rfl
  | true =>
    rw [readRate_of_poisoned h]
    rfl

theorem sameCounts_set (metered : Metered) (s : Store) {m : Meter Float} (hcount : m.count = (metered.get s).count)
    (hpoisoned : m.poisoned = (metered.get s).poisoned) : s.SameCounts (metered.set s m) := by
  cases metered with
  | meter h => exact .set s h _ (congrArg some hcount) hpoisoned
  | timer h => exact .set s h _ rfl hpoisoned

def CatchesUp (R : Store → Store → Prop) (metered : Metered) : Prop :=
  ∀ s, R s (metered.set s ((metered.get s).tickUpTo s.now))

theorem catchesUp_sameCounts (metered : Metered) : metered.CatchesUp Store.SameCounts := fun s =>
  metered.sameCounts_set s (Meter.count_tickUpTo _ _) (Meter.poisoned_tickUpTo _ _)

variable {R : Store → Store → Prop} [IsPreorder Store R]

theorem CatchesUp.keeps_readRate {metered : Metered} (h : metered.CatchesUp R) (horizon : Horizon) :
    Action.Keeps R (metered.readRate horizon) := by
  intro s
  rw [state_readRate]
  split
  · exact Std.Refl.refl s
  · exact h s

theorem keeps_meanRate (metered : Metered) : Action.Keeps R metered.meanRate :=
  .bind metered.keeps_hold fun _ => .bind .get fun _ => .pure _

end Metered

namespace Timer

theorem update_update_meter (h : Handle .timer) (span : Span) (s : Store) :
    Metered.set (s.update h fun t => { t with histogram := t.histogram.update (sampleOf span) })
        ((Metered.get (s.update h fun t => { t with histogram := t.histogram.update (sampleOf span) })
          (.timer h)).mark s.now 1) (.timer h) =
      s.update h fun t => t.update s.now span := by
  rw [Metered.set, Store.update_update]
  by_cases hin : h.index < (s.objects .timer).size
  · rw [Metered.get, Store.get_update hin]
    rfl
  · rw [Store.update_of_not_lt hin, Store.update_of_not_lt hin]

theorem record_ends (h : Handle .timer) (span : Span) (s : Store) :
    ∃ result, (record h span s).Ends result (s.update h fun t => t.update s.now span) ∧
      ((Timer.update (s.get h) s.now span).meter.poisoned = false → result = .ok ()) := by
  obtain ⟨result, hmark, hsound⟩ := Metered.mark_ends (.timer h) 1
    (s.update h fun t => { t with histogram := t.histogram.update (sampleOf span) })
  have hnow : (s.update h fun t => { t with histogram := t.histogram.update (sampleOf span) }).now = s.now := rfl
  rw [hnow, update_update_meter] at hmark
  refine ⟨result, .bind_ok ⟨rfl, rfl⟩ hmark, fun hroom => hsound ?_⟩
  rw [hnow]
  by_cases hin : h.index < (s.objects .timer).size
  · rw [Metered.get, Store.get_update hin]
    exact hroom
  · rw [Metered.get, Store.update_of_not_lt hin]
    exact hroom

theorem state_record (h : Handle .timer) (span : Span) (s : Store) :
    (record h span s).state = s.update h fun t => t.update s.now span := by
  obtain ⟨-, ⟨-, hstate⟩, -⟩ := record_ends h span s
  exact hstate

end Timer

namespace Gauge

def answer (s : Store) (h : Handle .gauge) : Answer :=
  (s.probe (s.get h).probe).answers (s.probe (s.get h).probe).asked

def asked (s : Store) (h : Handle .gauge) : Store :=
  s.setProbe (s.get h).probe { s.probe (s.get h).probe with asked := (s.probe (s.get h).probe).asked + 1 }

theorem read_of_value {h : Handle .gauge} {s : Store} {v : FieldValue} (hv : answer s h = .value v) :
    Gauge.read h s = ⟨.ok v, asked s h, []⟩ := by
  unfold answer at hv
  simp only [Gauge.read, Action.bind_apply, Action.get, Action.set, hv]
  rfl

theorem read_of_panic {h : Handle .gauge} {s : Store} {payload : Panic} (hp : answer s h = .panic payload) :
    Gauge.read h s = ⟨.error (.panic payload), asked s h, []⟩ := by
  unfold answer at hp
  simp only [Gauge.read, Action.bind_apply, Action.get, Action.set, hp]
  rfl

theorem state_read (h : Handle .gauge) (s : Store) : (Gauge.read h s).state = asked s h := by
  cases hanswer : answer s h with
  | value v => rw [read_of_value hanswer]
  | panic payload => rw [read_of_panic hanswer]

theorem keeps_read {R : Store → Store → Prop} {h : Handle .gauge} (hasked : ∀ s, R s (asked s h)) :
    Action.Keeps R (Gauge.read h) := by
  intro s
  rw [state_read]
  exact hasked s

end Gauge

def Metric.panic? (s : Store) : Metric → Option Panic
  | ⟨.gauge, h⟩ =>
    match Gauge.answer s h with
    | .value _ => none
    | .panic payload => some payload
  | x => if x.isPoisoned s then some Metered.poison else none

namespace Units

theorem rateFields_of_sound (units : Units) {metered : Metered} {s : Store} (h : (metered.get s).poisoned = false) :
    ∃ rates, (units.rateFields metered s).result = .ok rates := by
  have hsound {s' : Store} (hkept : s.SameCounts s') : (metered.get s').poisoned = false := by
    cases metered with
    | meter handle => exact (hkept.poisoned ⟨.meter, handle⟩).trans h
    | timer handle => exact (hkept.poisoned ⟨.timer, handle⟩).trans h
  have hread {s' : Store} (hkept : s.SameCounts s') (horizon : Horizon) :
      ∃ rate s'', (metered.readRate horizon s').Ends (.ok rate) s'' ∧ s.SameCounts s'' := by
    have hstate := hkept.trans (metered.catchesUp_sameCounts.keeps_readRate horizon s')
    rw [Metered.readRate_of_sound (hsound hkept)] at hstate ⊢
    exact ⟨_, _, ⟨rfl, rfl⟩, hstate⟩
  obtain ⟨m1, s₁, hm1, h₁⟩ := hread (.refl s) .m1
  obtain ⟨m5, s₂, hm5, h₂⟩ := hread h₁ .m5
  obtain ⟨m15, s₃, hm15, h₃⟩ := hread h₂ .m15
  have hmean : (metered.meanRate s₃).Ends (.ok ((metered.get s₃).meanRate s₃.now)) s₃ := by
    rw [Metered.meanRate_of_sound (hsound h₃)]
    exact ⟨rfl, rfl⟩
  exact ⟨_, (Step.Ends.bind_ok hm1 (.bind_ok hm5 (.bind_ok hm15 (.bind_ok hmean ⟨rfl, rfl⟩)))).1⟩

theorem rateFields_of_poisoned (units : Units) {metered : Metered} {s : Store}
    (h : (metered.get s).poisoned = true) : (units.rateFields metered s).result = .error (.panic Metered.poison) := by
  rw [rateFields, Action.bind_of_error (by rw [Metered.readRate_of_poisoned h])]

theorem result_fields (units : Units) (metric : Metric) (s : Store) :
    match metric.panic? s with
    | none => ∃ fields, (units.fields metric s).result = .ok fields
    | some payload => (units.fields metric s).result = .error (.panic payload) := by
  obtain ⟨kind, h⟩ := metric
  cases kind with
  | gauge =>
    cases hanswer : Gauge.answer s h with
    | value v =>
      have hok : (Gauge.read h s).result = .ok v := by rw [Gauge.read_of_value hanswer]
      simp only [Metric.panic?, hanswer, fields, Action.bind_of_ok hok]
      exact ⟨_, rfl⟩
    | panic payload =>
      have herror : (Gauge.read h s).result = .error (.panic payload) := by rw [Gauge.read_of_panic hanswer]
      simp only [Metric.panic?, hanswer, fields, Action.bind_of_error herror]
  | counter => exact ⟨_, rfl⟩
  | histogram => exact ⟨_, rfl⟩
  | meter =>
    cases hpoisoned : (Metered.get s (.meter h)).poisoned with
    | true =>
      have hpanic : Metric.panic? s ⟨.meter, h⟩ = some Metered.poison := if_pos hpoisoned
      rw [hpanic, fields, Action.bind_of_error (by rw [Metered.hold_of_poisoned hpoisoned])]
    | false =>
      have hcalm : Metric.panic? s ⟨.meter, h⟩ = none := if_neg (ne_true_of_eq_false hpoisoned)
      obtain ⟨rates, hrates⟩ := units.rateFields_of_sound hpoisoned
      have hheld : (Metered.hold (.meter h) s).Ends (.ok (Metered.get s (.meter h))) s := by
        rw [Metered.hold_of_sound hpoisoned]
        exact ⟨rfl, rfl⟩
      rw [hcalm]
      exact ⟨_, (hheld.bind_ok (.bind_ok (.self _ hrates) ⟨rfl, rfl⟩)).1⟩
  | timer =>
    have hread : (Action.get s).Ends (.ok s) s := ⟨rfl, rfl⟩
    cases hpoisoned : (Metered.get s (.timer h)).poisoned with
    | true =>
      have hpanic : Metric.panic? s ⟨.timer, h⟩ = some Metered.poison := if_pos hpoisoned
      rw [hpanic]
      exact (hread.bind_ok (.bind_error (.self _ (units.rateFields_of_poisoned hpoisoned)))).1
    | false =>
      have hcalm : Metric.panic? s ⟨.timer, h⟩ = none := if_neg (ne_true_of_eq_false hpoisoned)
      obtain ⟨rates, hrates⟩ := units.rateFields_of_sound hpoisoned
      rw [hcalm]
      exact ⟨_, (hread.bind_ok (.bind_ok (.self _ hrates) ⟨rfl, rfl⟩)).1⟩

variable {R : Store → Store → Prop} [IsPreorder Store R]

theorem keeps_rateFields (units : Units) {metered : Metered} (h : metered.CatchesUp R) :
    Action.Keeps R (units.rateFields metered) :=
  .bind (h.keeps_readRate .m1) fun _ => .bind (h.keeps_readRate .m5) fun _ => .bind (h.keeps_readRate .m15) fun _ =>
    .bind metered.keeps_meanRate fun _ => .pure _

theorem keeps_fields (units : Units) (hasked : ∀ s h, R s (Gauge.asked s h))
    (hcaught : ∀ metered, Metered.CatchesUp R metered) (metric : Metric) : Action.Keeps R (units.fields metric) := by
  obtain ⟨kind, h⟩ := metric
  cases kind with
  | gauge => exact .bind (Gauge.keeps_read fun s => hasked s h) fun _ => .pure _
  | counter => exact .bind .get fun _ => .pure _
  | histogram => exact .bind .get fun _ => .pure _
  | meter => exact .bind (Metered.keeps_hold _) fun _ => .bind (units.keeps_rateFields (hcaught _)) fun _ => .pure _
  | timer => exact .bind .get fun _ => .bind (units.keeps_rateFields (hcaught _)) fun _ => .pure _

theorem keepsCounts_fields (units : Units) (metric : Metric) : Action.Keeps Store.SameCounts (units.fields metric) :=
  units.keeps_fields (fun s _ => .setProbe s _ _) (fun metered => metered.catchesUp_sameCounts) metric

end Units

end MetricReporting
