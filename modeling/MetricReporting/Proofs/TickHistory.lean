import Mathlib.Algebra.Ring.Int.Defs
import MetricReporting.Clock
import MetricReporting.Proofs.LazyTicks
/-!
The books of a meter. However its clock is moved, the intervals that a meter has ticked for part the marks among
themselves: each mark is in one of them or still to be ticked for (`Meter.exists_ledger`).
-/
namespace MetricReporting

namespace MovingAverage

variable {α : Type} [Scalar α]

def countAll (a : MovingAverage α) (ns : List Int64) : MovingAverage α := ns.foldl count a

def through (a : MovingAverage α) (intervals : List (List Int64)) : MovingAverage α :=
  intervals.foldl (fun a ns => (a.countAll ns).tick) a

omit [Scalar α] in
theorem sinceTick_countAll (a : MovingAverage α) (ns : List Int64) :
    (a.countAll ns).sinceTick = a.sinceTick + ns.sum := by
  induction ns generalizing a with
  | nil => simp [countAll]
  | cons n rest ih =>
    have hrest := ih (a.count n)
    simp only [countAll, List.foldl_cons, List.sum_cons] at hrest ⊢
    rw [hrest, count, Int64.add_assoc]

omit [Scalar α] in
theorem rate_countAll (a : MovingAverage α) (ns : List Int64) : (a.countAll ns).rate = a.rate := by
  induction ns generalizing a with
  | nil => rfl
  | cons n rest ih => exact ih (a.count n)

theorem through_append (a : MovingAverage α) (one other : List (List Int64)) :
    a.through (one ++ other) = (a.through one).through other := List.foldl_append

theorem sinceTick_through (a : MovingAverage α) (h : a.sinceTick = 0) (intervals : List (List Int64)) :
    (a.through intervals).sinceTick = 0 := by
  induction intervals generalizing a with
  | nil => exact h
  | cons ns rest ih => exact ih (a.countAll ns).tick rfl

theorem isSome_rate_through (a : MovingAverage α) (intervals : List (List Int64)) (h : a.rate.isSome = true) :
    (a.through intervals).rate.isSome = true := by
  induction intervals generalizing a with
  | nil => exact h
  | cons ns rest ih => exact ih (a.countAll ns).tick rfl

theorem isSome_rate_through_iff (a : MovingAverage α) (intervals : List (List Int64)) (h : a.rate = none) :
    (a.through intervals).rate.isSome = true ↔ 1 ≤ intervals.length := by
  cases intervals with
  | nil => simp [through, h]
  | cons ns rest =>
    have hsome := isSome_rate_through (a.countAll ns).tick rest rfl
    exact ⟨fun _ => by simp, fun _ => hsome⟩

theorem through_replicate (a : MovingAverage α) (k : Nat) : a.through (List.replicate k []) = a.ticks k := by
  induction k generalizing a with
  | zero => rfl
  | succ k ih =>
    rw [ticks_succ, ← ih]
    rfl

theorem ticks_countAll (a : MovingAverage α) (ns : List Int64) (k : Nat) :
    (a.countAll ns).ticks (k + 1) = a.through (ns :: List.replicate k []) := by
  rw [ticks_succ, ← through_replicate]
  rfl

end MovingAverage

theorem toInt_add_of_le (a b : Int64) (h : a.toInt + b.toInt ≤ Int64.maxValue.toInt) (hb : 0 ≤ b) :
    (a + b).toInt = a.toInt + b.toInt := by
  have hmax : Int64.maxValue.toInt = 9223372036854775807 := by decide
  have hle := a.le_toInt
  have hb' : 0 ≤ b.toInt := Int64.le_iff_toInt_le.mp hb
  rw [Int64.toInt_add]
  exact Int.bmod_eq_of_le (by omega) (by omega)

/-- The events that a meter was marked with: those of each interval that it has ticked for, and those since. -/
structure Ledger where
  intervals : List (List Int64) := []
  pending : List Int64 := []

namespace Ledger

def entries (b : Ledger) : List Int64 := b.intervals.flatten ++ b.pending

def close (b : Ledger) : Nat → Ledger
  | 0 => b
  | k + 1 => ⟨b.intervals ++ b.pending :: List.replicate k [], []⟩

def enter (b : Ledger) (n : Int64) : Ledger := { b with pending := b.pending ++ [n] }

def total (ns : List Int64) : Int := (ns.map Int64.toInt).sum

structure Exact (b : Ledger) : Prop where
  entries : b.entries.sum.toInt = total b.entries
  intervals : ∀ ns ∈ b.intervals, ns.sum.toInt = total ns
  pending : b.pending.sum.toInt = total b.pending

theorem entries_close (b : Ledger) (k : Nat) : (b.close k).entries = b.entries := by
  cases k with
  | zero => rfl
  | succ k => simp [close, entries]

theorem entries_enter (b : Ledger) (n : Int64) : (b.enter n).entries = b.entries ++ [n] := by
  simp [enter, entries]

theorem length_close (b : Ledger) (k : Nat) : (b.close k).intervals.length = b.intervals.length + k := by
  cases k with
  | zero => rfl
  | succ k => simp [close]

theorem total_append (ns ms : List Int64) : total (ns ++ ms) = total ns + total ms := by
  simp [total]

theorem total_flatten (intervals : List (List Int64)) : total intervals.flatten = (intervals.map total).sum := by
  induction intervals with
  | nil => rfl
  | cons ns rest ih => rw [List.flatten_cons, total_append, ih, List.map_cons, List.sum_cons]

theorem sum_entries (b : Ledger) : b.entries.sum = b.pending.sum + (b.intervals.map List.sum).sum := by
  rw [entries, List.sum_append, List.sum_flatten, Int64.add_comm]

namespace Exact

theorem toInt_sum_entries {b : Ledger} (h : b.Exact) :
    b.entries.sum.toInt = b.pending.sum.toInt + (b.intervals.map fun ns => ns.sum.toInt).sum := by
  have hintervals : (b.intervals.map fun ns => ns.sum.toInt) = b.intervals.map total := List.map_congr_left h.intervals
  rw [h.entries, h.pending, hintervals, ← total_flatten, Ledger.entries, total_append, Int.add_comm]

theorem close {b : Ledger} (h : b.Exact) (k : Nat) : (b.close k).Exact := by
  cases k with
  | zero => exact h
  | succ k =>
    constructor
    · rw [entries_close]
      exact h.entries
    · intro ns hns
      simp only [Ledger.close, List.mem_append, List.mem_cons, List.mem_replicate] at hns
      rcases hns with hns | rfl | ⟨-, rfl⟩
      · exact h.intervals ns hns
      · exact h.pending
      · rfl
    · rfl

theorem enter {b : Ledger} (h : b.Exact) (n : Int64)
    (hentries : (b.entries.sum + n).toInt = b.entries.sum.toInt + n.toInt)
    (hpending : (b.pending.sum + n).toInt = b.pending.sum.toInt + n.toInt) : (b.enter n).Exact := by
  have hsingle : total [n] = n.toInt := by simp [total]
  constructor
  · rw [entries_enter, List.sum_append, List.sum_singleton, hentries, h.entries, total_append, hsingle]
  · exact h.intervals
  · rw [Ledger.enter, List.sum_append, List.sum_singleton, hpending, h.pending, total_append, hsingle]

end Exact

end Ledger

namespace Meter

structure IsNew {α : Type} (m : Meter α) (now : Nat) : Prop where
  start : m.start = now
  tickedAt : m.tickedAt = now
  count : m.count = 0
  sinceTick (h : Horizon) : (m.average h).sinceTick = 0
  rate (h : Horizon) : (m.average h).rate = none

theorem isNew_startedAt (now : Nat) : (startedAt now).IsNew now := by
  constructor
  · rfl
  · rfl
  · rfl
  · intro h
    cases h <;> rfl
  · intro h
    cases h <;> rfl

inductive Act
  | use (u : Use)
  | setClock (nanos : UInt64)
  | advance (span : Span)

def uses : Clock → List Act → List (Nat × Use)
  | _, [] => []
  | clock, .use u :: rest => (clock.now, u) :: uses clock rest
  | _, .setClock nanos :: rest => uses ⟨nanos⟩ rest
  | clock, .advance span :: rest => uses (clock.advance span) rest

variable {α : Type} [Scalar α]

def SumsFit : Meter α → List (Nat × Use) → Prop
  | _, [] => True
  | m, (t, .mark n) :: rest =>
    (m.count + n).toInt = m.count.toInt + n.toInt ∧
      (∀ h, (((m.tickUpTo t).average h).sinceTick + n).toInt = ((m.tickUpTo t).average h).sinceTick.toInt + n.toInt) ∧
      (m.mark t n).SumsFit rest
  | m, (t, .read h) :: rest => (m.use t (.read h)).SumsFit rest

theorem sumsFit_of_sound {m : Meter α} {uses : List (Nat × Use)} (h : (m.usedFor uses).poisoned = false) :
    m.poisoned = false ∧ m.SumsFit uses := by
  induction uses generalizing m with
  | nil => exact ⟨h, trivial⟩
  | cons u rest ih =>
    obtain ⟨t, u⟩ := u
    obtain ⟨hused, hrest⟩ := ih h
    cases u with
    | mark n =>
      have hmark : (m.mark t n).poisoned = false := hused
      rw [poisoned_mark, Bool.or_eq_false_iff, Bool.not_eq_false', decide_eq_true_iff] at hmark
      obtain ⟨hsound, hcount, hm1, hm5, hm15⟩ := hmark
      rw [count_tickUpTo] at hcount
      refine ⟨hsound, (Word.toInt_add_eq_iff _ _).mpr hcount, fun horizon => ?_, hrest⟩
      cases horizon with
      | m1 => exact (Word.toInt_add_eq_iff _ _).mpr hm1
      | m5 => exact (Word.toInt_add_eq_iff _ _).mpr hm5
      | m15 => exact (Word.toInt_add_eq_iff _ _).mpr hm15
    | read horizon => exact ⟨(poisoned_tickUpTo m t).symm.trans hused, hrest⟩

structure Agrees (first m : Meter α) (b : Ledger) : Prop where
  start : m.start = first.start
  tickedAt : m.tickedAt = first.tickedAt + b.intervals.length * tickNanos
  average (h : Horizon) : m.average h = ((first.average h).through b.intervals).countAll b.pending
  count : m.count = first.count + b.entries.sum

def ledgerFrom : Meter α → Ledger → List (Nat × Use) → Ledger
  | _, b, [] => b
  | m, b, (t, .mark n) :: rest => (m.mark t n).ledgerFrom ((b.close (m.ticksDue t)).enter n) rest
  | m, b, (t, .read h) :: rest => (m.use t (.read h)).ledgerFrom (b.close (m.ticksDue t)) rest

theorem start_tickTimes (m : Meter α) (k : Nat) : (m.tickTimes k).start = m.start := by
  cases m
  rfl

theorem count_tickTimes (m : Meter α) (k : Nat) : (m.tickTimes k).count = m.count := by
  cases m
  rfl

namespace Agrees

variable {first m : Meter α} {b : Ledger}

theorem refl (first : Meter α) : Agrees first first {} := by
  constructor
  · rfl
  · simp
  · intro h
    rfl
  · simp [Ledger.entries]

theorem tickTimes (h : Agrees first m b) (k : Nat) : Agrees first (m.tickTimes k) (b.close k) := by
  constructor
  · rw [start_tickTimes, h.start]
  · rw [tickedAt_tickTimes, h.tickedAt, b.length_close, Nat.add_mul, Nat.add_assoc]
  · intro horizon
    rw [average_tickTimes, h.average]
    cases k with
    | zero => rfl
    | succ k =>
      rw [MovingAverage.ticks_countAll, ← MovingAverage.through_append]
      rfl
  · rw [b.entries_close, count_tickTimes, h.count]

theorem tickUpTo (h : Agrees first m b) (t : Nat) : Agrees first (m.tickUpTo t) (b.close (m.ticksDue t)) := by
  rw [tickUpTo_eq]
  exact h.tickTimes (m.ticksDue t)

theorem tally (h : Agrees first m b) (n : Int64) : Agrees first (m.tally n) (b.enter n) := by
  constructor
  · exact h.start
  · exact h.tickedAt
  · intro horizon
    rw [average_tally, h.average]
    simp [MovingAverage.countAll, Ledger.enter]
  · have hcount : (m.tally n).count = m.count + n := rfl
    rw [hcount, h.count, b.entries_enter, List.sum_append, List.sum_singleton, Int64.add_assoc]

theorem usedFor (h : Agrees first m b) (uses : List (Nat × Use)) :
    Agrees first (m.usedFor uses) (m.ledgerFrom b uses) := by
  induction uses generalizing m b with
  | nil => exact h
  | cons u rest ih =>
    obtain ⟨t, u⟩ := u
    cases u with
    | mark n => exact ih ((h.tickUpTo t).tally n)
    | read horizon => exact ih (h.tickUpTo t)

theorem sinceTick (h : Agrees first m b) (hfirst : ∀ horizon, (first.average horizon).sinceTick = 0)
    (horizon : Horizon) : (m.average horizon).sinceTick = b.pending.sum := by
  have hclosed := MovingAverage.sinceTick_through (first.average horizon) (hfirst horizon) b.intervals
  rw [h.average, MovingAverage.sinceTick_countAll, hclosed, Int64.zero_add]

end Agrees

theorem entries_ledgerFrom (m : Meter α) (b : Ledger) (uses : List (Nat × Use)) :
    (m.ledgerFrom b uses).entries = b.entries ++ (marks uses).map Prod.snd := by
  induction uses generalizing m b with
  | nil => simp [ledgerFrom, marks]
  | cons u rest ih =>
    obtain ⟨t, u⟩ := u
    cases u with
    | mark n => simp [ledgerFrom, marks, ih, Ledger.entries_enter, Ledger.entries_close]
    | read h => simp [ledgerFrom, marks, ih, Ledger.entries_close]

theorem exact_ledgerFrom {first m : Meter α} {b : Ledger} (uses : List (Nat × Use)) (hagrees : Agrees first m b)
    (hcount : first.count = 0) (hsince : ∀ h, (first.average h).sinceTick = 0) (hexact : b.Exact)
    (hfit : m.SumsFit uses) : (m.ledgerFrom b uses).Exact := by
  induction uses generalizing m b with
  | nil => exact hexact
  | cons u rest ih =>
    obtain ⟨t, u⟩ := u
    have hticked := hagrees.tickUpTo t
    have hclosed := hexact.close (m.ticksDue t)
    cases u with
    | mark n =>
      obtain ⟨hsum, hpending, hrest⟩ := hfit
      have hentries : m.count = (b.close (m.ticksDue t)).entries.sum := by
        rw [hagrees.count, hcount, b.entries_close, Int64.zero_add]
      have hone := hpending .m1
      rw [hticked.sinceTick hsince] at hone
      rw [hentries] at hsum
      exact ih (hticked.tally n) (hclosed.enter n hsum hone) hrest
    | read h => exact ih hticked hclosed hfit

theorem exists_instant_above (m : Meter α) (uses : List (Nat × Use)) :
    ∃ t ∈ m.tickedAt :: uses.map Prod.fst, (m.usedFor uses).tickedAt ≤ t := by
  induction uses generalizing m with
  | nil => exact ⟨m.tickedAt, by simp, le_refl _⟩
  | cons u rest ih =>
    obtain ⟨t, u⟩ := u
    obtain ⟨s, hs, hle⟩ := ih (m.use t u)
    have hused : (m.use t u).tickedAt = m.tickedAt ∨ (m.use t u).tickedAt ≤ t := by
      by_cases hdue : m.ticksDue t = 0
      · left
        rw [tickedAt_use, hdue]
        simp
      · right
        have hlt := lt_of_ticksDue_ne_zero m t hdue
        exact tickedAt_use_le m t u (by omega)
    rcases List.mem_cons.mp hs with rfl | hs
    · rcases hused with heq | hbelow
      · exact ⟨m.tickedAt, by simp, by rw [← heq]; exact hle⟩
      · exact ⟨t, by simp, hle.trans hbelow⟩
    · exact ⟨s, by simp [hs], hle⟩

theorem le_tickedAt_use (m : Meter α) (now : Nat) (u : Use) : now ≤ (m.use now u).tickedAt + tickNanos := by
  rw [tickedAt_use, ticksDue]
  split
  · omega
  · simp only [tickNanos]
    omega

theorem tickUpTo_of_le (m : Meter α) (now : Nat) (h : now ≤ m.tickedAt + tickNanos) : m.tickUpTo now = m := by
  have hdue : m.ticksDue now = 0 := if_pos (by omega)
  rw [tickUpTo_eq, hdue, tickTimes_zero]

def note (m : Meter α) : Use → Meter α
  | .mark n => m.tally n
  | .read _ => m

theorem use_of_le (m : Meter α) (now : Nat) (u : Use) (h : now ≤ m.tickedAt + tickNanos) : m.use now u = m.note u := by
  have hstill := tickUpTo_of_le m now h
  cases u with
  | mark n =>
    rw [use, mark_eq, hstill]
    rfl
  | read horizon =>
    rw [use_read, hstill]
    rfl

structure Balances (first : Meter α) (uses : List (Nat × Use)) (last : Meter α) (b : Ledger) : Prop where
  entries : b.entries = (marks uses).map Prod.snd
  start : last.start = first.start
  tickedAt : last.tickedAt = last.start + b.intervals.length * tickNanos
  seen : ∃ t ∈ first.start :: uses.map Prod.fst, last.tickedAt ≤ t
  average (h : Horizon) : last.average h = ((first.average h).through b.intervals).countAll b.pending
  isSome_rate_iff (h : Horizon) : (last.average h).rate.isSome = true ↔ 1 ≤ b.intervals.length
  sinceTick (h : Horizon) : (last.average h).sinceTick = b.pending.sum
  count : last.count = b.pending.sum + (b.intervals.map List.sum).sum
  exact : first.SumsFit uses →
    last.count.toInt = b.pending.sum.toInt + (b.intervals.map fun ns => ns.sum.toInt).sum ∧
      last.count.toInt = Ledger.total b.entries
  reaches (now : Nat) (u : Use) : now ≤ (last.use now u).tickedAt + tickNanos
  still (now : Nat) (u : Use) : now ≤ last.tickedAt + tickNanos → last.use now u = last.note u

/-- A meter that has been marked and read while its clock was moved about has ticked for as many intervals as its last
tick is past its start. Each average is what one tick at the end of each of them makes of it, and the marks are all
in the ledger, in order, each once. This holds in any arithmetic, so also in one in which a rate shows the ticks that
it comes from. -/
theorem exists_ledger (m : Meter α) (clock : Clock) (acts : List Act) (hnew : m.IsNew clock.now) :
    ∃ b, Balances m (uses clock acts) (m.usedFor (uses clock acts)) b := by
  have hagrees := (Agrees.refl m).usedFor (uses clock acts)
  have hentries := m.entries_ledgerFrom {} (uses clock acts)
  have hcount : (m.usedFor (uses clock acts)).count = (m.ledgerFrom {} (uses clock acts)).entries.sum := by
    rw [hagrees.count, hnew.count, Int64.zero_add]
  refine ⟨m.ledgerFrom {} (uses clock acts), ?_⟩
  constructor
  · exact hentries
  · exact hagrees.start
  · rw [hagrees.tickedAt, hagrees.start, hnew.tickedAt, hnew.start]
  · have hseen := m.exists_instant_above (uses clock acts)
    rw [hnew.tickedAt, ← hnew.start] at hseen
    exact hseen
  · exact hagrees.average
  · intro h
    rw [hagrees.average, MovingAverage.rate_countAll]
    exact MovingAverage.isSome_rate_through_iff _ _ (hnew.rate h)
  · exact hagrees.sinceTick hnew.sinceTick
  · rw [hcount, Ledger.sum_entries]
  · intro hfit
    have hempty : Ledger.Exact {} := ⟨rfl, by simp, rfl⟩
    have hexact := exact_ledgerFrom _ (Agrees.refl m) hnew.count hnew.sinceTick hempty hfit
    rw [hcount]
    exact ⟨hexact.toInt_sum_entries, hexact.entries⟩
  · exact le_tickedAt_use _
  · exact use_of_le _

theorem exists_ledger_with_clock_set_back :
    let m := Meter.startedAt 7
    let acts : List Act := [.use (.mark 3), .advance ⟨16000000000⟩, .use (.mark (-5)), .setClock 1, .use (.mark 4),
      .setClock (-1), .advance ⟨40000000000⟩, .use (.read .m5)]
    m.IsNew 7 ∧ m.SumsFit (uses ⟨7⟩ acts) ∧
      ∃ b, Balances m (uses ⟨7⟩ acts) (m.usedFor (uses ⟨7⟩ acts)) b ∧ (m.usedFor (uses ⟨7⟩ acts)).count.toInt = 2 := by
  intro m acts
  have hfit : m.SumsFit (uses ⟨7⟩ acts) := by
    refine ⟨by decide, ?_, by decide, ?_, by decide, ?_, trivial⟩
    · intro h
      cases h <;> decide
    · intro h
      cases h <;> decide
    · intro h
      cases h <;> decide
  obtain ⟨b, hb⟩ := exists_ledger m ⟨7⟩ acts (isNew_startedAt 7)
  have hcount := (hb.exact hfit).2
  rw [hb.entries] at hcount
  exact ⟨isNew_startedAt 7, hfit, b, hb, hcount⟩

end Meter

end MetricReporting
