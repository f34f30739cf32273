import Mathlib.Algebra.Ring.Nat
import MetricReporting.Proofs.Conversions
import MetricReporting.Proofs.TrafficCounts

namespace MetricReporting.Traffic

def fieldOf : Kind → String
  | .gauge => "value"
  | .counter | .histogram | .meter | .timer => "count"

def entryOf (kind : Kind) : String × Metric := (nameOf kind, ⟨kind, ⟨0⟩⟩)

theorem nameOf_injective : Function.Injective nameOf := by
  intro a b h
  cases a <;> cases b <;> first | rfl | exact absurd h (by decide)

def isIdle (before? : Option Nat) (n : Nat) (kind : Kind) : Bool :=
  kind.isMetered && before?.any fun before => shownAfter before kind == shownAfter n kind

def reported (admits : String → Bool) (suppress : Bool) (before? : Option Nat) (n : Nat) (kinds : List Kind) :
    List Kind :=
  kinds.filter fun kind => admits (nameOf kind) && !(suppress && isIdle before? n kind)

structure Tells (n : Nat) (now : Instant) (kind : Kind) (p : Point) : Prop where
  measurement : p.measurement = nameOf kind
  tags : p.tags = none
  timestamp : p.timestamp = toString now.millis
  value : p.field? (fieldOf kind) = some (.integer (.ofNat (shownAfter n kind)))

/-- If metrics are suppressed, the table has the count of an admitted one at the cycle before. If not, it has none. -/
def IsTabled (admits : String → Bool) (suppress : Bool) (before? : Option Nat) (t : IdleTable) (kind : Kind) : Prop :=
  admits (nameOf kind) = true → kind.isMetered = true →
    t.get? (nameOf kind) = if suppress then before?.map fun before => .ofNat (shownAfter before kind) else none

theorem shownAfter_mono {before n : Nat} (h : before ≤ n) {kind : Kind} (hkind : kind.isMetered = true) :
    shownAfter before kind ≤ shownAfter n kind := by
  cases kind with
  | gauge => cases hkind
  | counter => cases hkind
  | histogram => cases hkind
  | meter =>
    simp only [shownAfter]
    omega
  | timer => exact h

theorem Serves.quantity {n : Nat} {s : Store} (hs : Serves n s) (kind : Kind) :
    (fieldOf kind, .plain (.integer (.ofNat (shownAfter n kind)))) ∈ Metric.quantities s ⟨kind, ⟨0⟩⟩ := by
  cases kind with
  | gauge =>
    have hquantities : Metric.quantities s ⟨.gauge, ⟨0⟩⟩ =
        [("value", .plain (.integer (.ofNat (shownAfter n .gauge))))] := by
      rw [Metric.quantities, hs.answer]
    rw [hquantities]
    exact List.mem_singleton_self _
  | counter => exact Metric.count_mem_quantities (hs.count? (by decide))
  | histogram => exact Metric.count_mem_quantities (hs.count? (by decide))
  | meter => exact Metric.count_mem_quantities (hs.count? (by decide))
  | timer => exact Metric.count_mem_quantities (hs.count? (by decide))

theorem Serves.isPoisoned {n : Nat} {s : Store} (hs : Serves n s) (hn : n < 2 ^ 63) (kind : Kind) :
    Metric.isPoisoned s ⟨kind, ⟨0⟩⟩ = false :=
  Holds.isPoisoned hs (fun other => Nat.lt_of_le_of_lt (shownAfter_le n other) hn) kind

theorem Serves.calm {n : Nat} {s : Store} (hs : Serves n s) (hn : n < 2 ^ 63) (kind : Kind) :
    Metric.panic? s ⟨kind, ⟨0⟩⟩ = none := by
  refine (Metric.panic?_eq_none_iff _ s).mpr ⟨?_, hs.isPoisoned hn kind⟩
  rintro rfl
  rw [Metric.panic?, hs.answer]

theorem Serves.visited {n : Nat} {s : Store} (hs : Serves n s) (settings : CycleSettings) (now : Instant) (c : Cycle)
    (entry : String × Metric) : Serves n (Cycle.visit settings now c entry s).state := by
  have hfields := settings.units.keeps_fields (R := Action.PassesOn (Serves n)) (fun _ h hs => Holds.asked hs h)
    (fun metered _ hs => Holds.catchUp hs metered)
  exact Cycle.keeps_visit_of_fields settings hfields now c entry s hs

variable {admits : String → Bool} {before? : Option Nat} {n : Nat} (hbefore : ∀ before ∈ before?, before ≤ n)
  (hn : n < 2 ^ 63)

section

variable {settings : CycleSettings} {t : IdleTable} {s : Store} (hs : Serves n s) {kind : Kind}

include hbefore hn

theorem skip_served (hkind : kind.isMetered = true) {name : String}
    (ht : t.get? name = before?.map fun before => .ofNat (shownAfter before kind)) :
    (t.skip name (.ofNat (shownAfter n kind)) true).1 = isIdle before? n kind ∧
      (t.skip name (.ofNat (shownAfter n kind)) true).2.get? name = some (.ofNat (shownAfter n kind)) := by
  -- No count that is shown goes past the largest integer, so they compare as numbers do.
  have hle (before : Nat) (h : before ∈ before?) : shownAfter before kind ≤ shownAfter n kind :=
    shownAfter_mono (hbefore before h) hkind
  have hshown := Nat.lt_of_le_of_lt (shownAfter_le n kind) hn
  have hint (count : Nat) (h : count ≤ shownAfter n kind) : (Int64.ofNat count).toInt = count :=
    Int64.toInt_ofNat_of_lt (Nat.lt_of_le_of_lt h hshown)
  obtain ⟨hidle, hstored⟩ := t.skip_of_le name (.ofNat (shownAfter n kind)) (by
    intro stored hstored
    rw [ht] at hstored
    obtain ⟨before, hmem, rfl⟩ := Option.map_eq_some_iff.mp hstored
    rw [Int64.le_iff_toInt_le, hint _ (Nat.le_refl _), hint _ (hle before hmem)]
    exact Int.ofNat_le.mpr (hle before hmem))
  refine ⟨?_, hstored⟩
  rw [Bool.eq_iff_iff, hidle, ht, isIdle, hkind]
  cases hmem : before? with
  | none => simp
  | some before =>
    simp only [Option.map_some, Option.some.injEq, Bool.true_and, Option.any_some, beq_iff_eq]
    constructor
    · intro hsame
      have heq := congrArg Int64.toInt hsame
      rw [hint _ (Nat.le_refl _), hint _ (hle before hmem)] at heq
      exact Int.ofNat_inj.mp heq
    · intro hsame
      rw [hsame]

theorem overflows_served (hadmits : admits (nameOf kind) = true) (hkind : kind.isMetered = true)
    (ht : IsTabled admits settings.skipIdle before? t kind) (count : Int64) :
    t.overflows (nameOf kind) count = false := by
  rw [IdleTable.overflows, ht hadmits hkind, Option.any_eq_false]
  intro stored hstored
  rw [decide_eq_false_iff_not]
  obtain ⟨before, hmem, rfl⟩ : ∃ before ∈ before?, Int64.ofNat (shownAfter before kind) = stored := by
    cases hskip : settings.skipIdle with
    | false =>
      rw [hskip] at hstored
      cases hstored
    | true =>
      rw [hskip] at hstored
      exact Option.map_eq_some_iff.mp hstored
  have hle := Nat.le_trans (shownAfter_le before kind) (hbefore before hmem)
  have hcount := (Word.holds_toInt count).2
  rw [Int64.toInt_ofNat_of_lt (Nat.lt_of_le_of_lt hle hn)]
  omega

include hs

theorem judge_served (hadmits : admits (nameOf kind) = true) (ht : IsTabled admits settings.skipIdle before? t kind) :
    Cycle.judgePanic? t s (nameOf kind) ⟨kind, ⟨0⟩⟩ = none ∧
    (Cycle.judge settings t s (nameOf kind) ⟨kind, ⟨0⟩⟩).1 = (settings.skipIdle && isIdle before? n kind) ∧
      IsTabled admits settings.skipIdle (some n) (Cycle.judge settings t s (nameOf kind) ⟨kind, ⟨0⟩⟩).2 kind := by
  cases hkind : kind.isMetered with
  | false =>
    rw [Cycle.judge_of_plain settings t s (nameOf kind) hkind, isIdle, hkind,
      Cycle.judgePanic?_of_plain t s (nameOf kind) (x := ⟨kind, ⟨0⟩⟩) hkind]
    simp [IsTabled, hkind]
  | true =>
    have hcount : Metric.count? s ⟨kind, ⟨0⟩⟩ = some (.ofNat (shownAfter n kind)) := by
      apply hs.count?
      rintro rfl
      cases hkind
    have hpanic : Cycle.judgePanic? t s (nameOf kind) ⟨kind, ⟨0⟩⟩ = none := by
      refine (Cycle.judgePanic?_eq_none_iff t s (nameOf kind) _).mpr ⟨?_, ?_⟩
      · rw [hs.isPoisoned hn]
        exact nofun
      · rw [Cycle.outruns, Cycle.activity?, hkind, if_pos rfl, hcount, Option.any_some]
        exact overflows_served hbefore hn hadmits hkind ht _
    refine ⟨hpanic, ?_⟩
    cases hskip : settings.skipIdle with
    | false =>
      rw [Cycle.judge_of_not_suppressing settings hskip]
      refine ⟨rfl, fun hadmits hkind => ?_⟩
      rw [ht hadmits hkind, hskip]
      rfl
    | true =>
      have htable := ht hadmits hkind
      rw [hskip] at htable
      rw [Cycle.judge_of_count settings t s (nameOf kind) hkind hcount, hskip]
      obtain ⟨hidle, hstored⟩ := skip_served hbefore hn hkind htable
      exact ⟨hidle, fun _ _ => hstored⟩

end

structure Covers (admits : String → Bool) (suppress : Bool) (before? : Option Nat) (n : Nat) (now : Instant)
    (kinds : List Kind) (c c' : Cycle) : Prop where
  points : ∃ points, c'.points = c.points ++ points ∧
    List.Forall₂ (Tells n now) (reported admits suppress before? n kinds) points
  table : ∀ kind ∈ kinds, IsTabled admits suppress (some n) c'.previous kind
  others : ∀ kind ∉ kinds, c'.previous.get? (nameOf kind) = c.previous.get? (nameOf kind)

variable {suppress : Bool} {now : Instant} {kind : Kind} {kinds : List Kind} {c c₁ c' : Cycle}

theorem Covers.nil (c : Cycle) : Covers admits suppress before? n now [] c c where
  points := ⟨[], (List.append_nil _).symm, .nil⟩
  table := nofun
  others _ _ := rfl

theorem Covers.cons (hfirst : Covers admits suppress before? n now [kind] c c₁)
    (hrest : Covers admits suppress before? n now kinds c₁ c') (hnew : kind ∉ kinds) :
    Covers admits suppress before? n now (kind :: kinds) c c' where
  points := by
    obtain ⟨points, hpoints, htells⟩ := hfirst.points
    obtain ⟨more, hmore, htells'⟩ := hrest.points
    refine ⟨points ++ more, ?_, ?_⟩
    · rw [hmore, hpoints, List.append_assoc]
    · rw [reported, ← List.singleton_append, List.filter_append]
      exact List.rel_append htells htells'
  table other hother := by
    rcases List.mem_cons.mp hother with rfl | hlater
    · intro hadmits hkind
      rw [hrest.others other hnew]
      exact hfirst.table other List.mem_cons_self hadmits hkind
    · exact hrest.table other hlater
  others other hother := by
    rw [List.mem_cons, not_or] at hother
    rw [hrest.others other hother.2]
    exact hfirst.others other (by simpa using hother.1)

variable {settings : CycleSettings} {s : Store}

theorem IsTabled.of_get?_eq {t t' : IdleTable} (h : IsTabled admits suppress before? t kind)
    (hget : t'.get? (nameOf kind) = t.get? (nameOf kind)) : IsTabled admits suppress before? t' kind := by
  intro hadmits hkind
  rw [hget]
  exact h hadmits hkind

variable (now)

include hbefore hn

theorem visit_served (hs : Serves n s) (hfilter : settings.filter = .ofNames admits)
    (ht : IsTabled admits settings.skipIdle before? c.previous kind) :
    ∃ c', (Cycle.visit settings now c (entryOf kind) s).result = .ok c' ∧
      Covers admits settings.skipIdle before? n now [kind] c c' := by
  have hends := settings.units.fields_ends (hs.calm hn kind)
  have hadmitted : settings.filter s (nameOf kind) ⟨kind, ⟨0⟩⟩ = .ok (admits (nameOf kind)) := by rw [hfilter]; rfl
  have hcalm : Cycle.panic? settings c.previous s (nameOf kind) ⟨kind, ⟨0⟩⟩ = none := by
    cases hadmits : admits (nameOf kind) with
    | false => rw [Cycle.panic?, hadmitted, hadmits]
    | true =>
      rw [hadmits] at hadmitted
      exact (Cycle.panic?_eq_none_iff_of_admitted hadmitted).mpr
        ⟨(judge_served hbefore hn hs hadmits ht).1, fun _ => hs.calm hn kind⟩
  -- Names differ from kind to kind, so the judgement leaves the other entries of the table alone.
  have hothers (other : Kind) (hother : other ∉ [kind]) :
      (Cycle.judge settings c.previous s (nameOf kind) ⟨kind, ⟨0⟩⟩).2.get? (nameOf other) =
        c.previous.get? (nameOf other) := by
    apply Cycle.get?_judge_of_ne
    intro hname
    exact hother (List.mem_singleton.mpr (nameOf_injective hname).symm)
  rcases Cycle.visit_cases settings now c (nameOf kind) ⟨kind, ⟨0⟩⟩ s hcalm with
    ⟨hrejects, hvisit⟩ | ⟨hadmits, hidle, hvisit⟩ | ⟨hadmits, hbusy, fields, hfields, hvisit⟩
  · rw [entryOf, hvisit]
    have hno : admits (nameOf kind) = false := Except.ok.inj (hadmitted.symm.trans hrejects)
    refine ⟨_, rfl, ⟨[], (List.append_nil _).symm, ?_⟩, ?_, fun _ _ => rfl⟩
    · simp [reported, hno]
    · simp [IsTabled, hno]
  · have hyes : admits (nameOf kind) = true := Except.ok.inj (hadmitted.symm.trans hadmits)
    obtain ⟨-, hjudge, htable⟩ := judge_served hbefore hn hs hyes ht
    rw [hidle] at hjudge
    rw [entryOf, hvisit]
    refine ⟨_, rfl, ⟨[], (List.append_nil _).symm, ?_⟩, ?_, hothers⟩
    · rw [reported, List.filter_singleton, hyes, ← hjudge]
      exact .nil
    · simpa using htable
  · have hyes : admits (nameOf kind) = true := Except.ok.inj (hadmitted.symm.trans hadmits)
    obtain ⟨-, hjudge, htable⟩ := judge_served hbefore hn hs hyes ht
    rw [hbusy] at hjudge
    rw [entryOf, hvisit, Except.ok.inj (hfields.symm.trans hends.1)]
    refine ⟨_, rfl, ⟨_, rfl, ?_⟩, ?_, hothers⟩
    · have hvalue := Metric.get?_fieldsIn_of_mem settings.units (hs.quantity kind)
      rw [reported, List.filter_singleton, hyes, ← hjudge]
      exact .cons ⟨rfl, rfl, rfl, hvalue⟩ .nil
    · simpa using htable

theorem visits_served (hfilter : settings.filter = .ofNames admits) (hkinds : kinds.Nodup) (hs : Serves n s)
    (ht : ∀ kind ∈ kinds, IsTabled admits settings.skipIdle before? c.previous kind) :
    ∃ c' s', ((kinds.map entryOf).foldlM (Cycle.visit settings now) c s).Ends (.ok c') s' ∧
      Serves n s' ∧ Covers admits settings.skipIdle before? n now kinds c c' := by
  induction kinds generalizing c s with
  | nil => exact ⟨c, s, ⟨rfl, rfl⟩, hs, .nil c⟩
  | cons kind rest ih =>
    obtain ⟨hnew, hrest⟩ := List.nodup_cons.mp hkinds
    obtain ⟨hfirst, hlater⟩ := List.forall_mem_cons.mp ht
    obtain ⟨c₁, hvisit, hcovers⟩ := visit_served hbefore hn now hs hfilter hfirst
    have ht₁ (other : Kind) (hother : other ∈ rest) : IsTabled admits settings.skipIdle before? c₁.previous other := by
      apply (hlater other hother).of_get?_eq
      apply hcovers.others
      rw [List.mem_singleton]
      rintro rfl
      exact hnew hother
    obtain ⟨c', s', hends, hs', hcovers'⟩ := ih hrest (hs.visited settings now c (entryOf kind)) ht₁
    refine ⟨c', s', ?_, hs', hcovers.cons hcovers' hnew⟩
    rw [List.map_cons, List.foldlM_cons]
    exact .bind_ok ⟨hvisit, rfl⟩ hends

theorem build_served {snapshot : Snapshot} {previous : IdleTable}
    (hentries : snapshot.entries = Kind.all.map entryOf) (hfilter : settings.filter = .ofNames admits)
    (hs : Serves n s) (ht : ∀ kind, IsTabled admits settings.skipIdle before? previous kind) :
    ∃ c' s', (Cycle.build snapshot settings previous now s).Ends (.ok c') s' ∧ Serves n s' ∧
      List.Forall₂ (Tells n now) (reported admits settings.skipIdle before? n Kind.all) c'.points ∧
      ∀ kind, IsTabled admits settings.skipIdle (some n) c'.previous kind := by
  obtain ⟨c', s', hends, hs', hcovers⟩ := visits_served hbefore hn now (c := { previous }) hfilter
    (show Kind.all.Nodup by decide) hs fun kind _ => ht kind
  obtain ⟨points, hpoints, htells⟩ := hcovers.points
  rw [← hentries] at hends
  rw [List.nil_append] at hpoints
  exact ⟨c', s', hends, hs', hpoints ▸ htells, fun kind => hcovers.table kind kind.mem_all⟩

omit hbefore hn

theorem snapshot_installed {i : Instruments} (h : i.registry = (install {}).state.registry) :
    ∃ snapshot : Snapshot, (Registry.snapshot i).Ends (.ok snapshot) i ∧ snapshot.entries = Kind.all.map entryOf := by
  obtain ⟨store, registry⟩ := i
  cases h
  exact ⟨_, ⟨rfl, rfl⟩, rfl⟩

end MetricReporting.Traffic
