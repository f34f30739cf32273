import Mathlib.Data.List.Chain
import MetricReporting.Timer
/-!
Meters make up for the ticks that are due only when they are used. Where it matters when they are used, and where not:
two runs with the same marks agree exactly if at each instant at which both are used, either both or neither is
exactly one interval past its last tick (`Meter.showings_eq_iff_edges_eq`).
-/
namespace MetricReporting

namespace MovingAverage

variable {α : Type} [Scalar α]

theorem ticks_add (a : MovingAverage α) (j k : Nat) : a.ticks (j + k) = (a.ticks j).ticks k := by
  induction j generalizing a with
  | zero => rw [Nat.zero_add, ticks_zero]
  | succ j ih => rw [Nat.succ_add, ticks_succ, ih, ticks_succ]

theorem sinceTick_ticks (a : MovingAverage α) (k : Nat) :
    (a.ticks k).sinceTick = if k = 0 then a.sinceTick else 0 := by
  cases k <;> rfl

end MovingAverage

namespace Meter

inductive Use
  | mark (n : Int64)
  | read (h : Horizon)

section

variable {α : Type}

def ticksDue (m : Meter α) (now : Nat) : Nat :=
  if now - m.tickedAt ≤ tickNanos then 0 else (now - m.tickedAt) / tickNanos

def onEdge (m : Meter α) (now : Nat) : Bool := now == m.tickedAt + tickNanos

theorem lt_of_ticksDue_ne_zero (m : Meter α) (now : Nat) (h : m.ticksDue now ≠ 0) : m.tickedAt + tickNanos < now := by
  by_cases hage : now - m.tickedAt ≤ tickNanos
  · exact absurd (if_pos hage) h
  · omega

theorem add_ticksDue (m : Meter α) (start k now : Nat) (hk : m.tickedAt = start + k * tickNanos)
    (h : m.tickedAt ≤ now) : k + m.ticksDue now = (now - start) / tickNanos - (m.onEdge now).toNat := by
  rw [hk] at h
  rw [ticksDue, onEdge, hk]
  by_cases hedge : now = start + k * tickNanos + tickNanos
  · rw [if_pos (by omega), beq_iff_eq.mpr hedge, Bool.toNat_true]
    simp only [tickNanos] at hedge h ⊢
    omega
  · rw [beq_eq_false_iff_ne.mpr hedge, Bool.toNat_false]
    by_cases hage : now - (start + k * tickNanos) ≤ tickNanos
    · rw [if_pos hage]
      simp only [tickNanos] at hage hedge h ⊢
      omega
    · rw [if_neg hage]
      simp only [tickNanos] at hage hedge h ⊢
      omega

theorem toNat_onEdge_le (m : Meter α) (start k now : Nat) (hk : m.tickedAt = start + k * tickNanos) :
    (m.onEdge now).toNat ≤ (now - start) / tickNanos := by
  by_cases hedge : now = m.tickedAt + tickNanos
  · rw [onEdge, beq_iff_eq.mpr hedge, Bool.toNat_true]
    simp only [tickNanos] at hedge hk ⊢
    omega
  · rw [onEdge, beq_eq_false_iff_ne.mpr hedge, Bool.toNat_false]
    exact Nat.zero_le _

theorem onEdge_of_clear (m : Meter α) (start k since now : Nat) (hk : m.tickedAt = start + k * tickNanos)
    (hsince : k = 0 ∨ start + tickNanos < since) (h : since ≤ now)
    (hclear : tickNanos ∣ now - start → now ≤ start + tickNanos) : m.onEdge now = (now == start + tickNanos) := by
  rw [onEdge, hk, Bool.eq_iff_iff, beq_iff_eq, beq_iff_eq]
  simp only [tickNanos] at hclear hsince ⊢
  omega

end

variable {α : Type} [Scalar α]

def use (m : Meter α) (now : Nat) : Use → Meter α
  | .mark n => m.mark now n
  | .read h => (m.readRate now h).2

def tickTimes (m : Meter α) (k : Nat) : Meter α :=
  { m with
    tickedAt := m.tickedAt + k * tickNanos
    m1 := m.m1.ticks k
    m5 := m.m5.ticks k
    m15 := m.m15.ticks k }

def tally (m : Meter α) (n : Int64) : Meter α :=
  { m with
    count := m.count + n
    m1 := m.m1.count n
    m5 := m.m5.count n
    m15 := m.m15.count n
    poisoned := m.poisoned || !decide (m.HasRoom n) }

theorem tickTimes_zero (m : Meter α) : m.tickTimes 0 = m := by
  unfold tickTimes
  rw [Nat.zero_mul]
  rfl

theorem tickTimes_add (m : Meter α) (j k : Nat) : (m.tickTimes j).tickTimes k = m.tickTimes (j + k) := by
  have hsum : m.tickedAt + j * tickNanos + k * tickNanos = m.tickedAt + (j + k) * tickNanos := by
    rw [Nat.add_mul, Nat.add_assoc]
  unfold tickTimes
  rw [MovingAverage.ticks_add, MovingAverage.ticks_add, MovingAverage.ticks_add, ← hsum]

theorem tickUpTo_eq (m : Meter α) (now : Nat) : m.tickUpTo now = m.tickTimes (m.ticksDue now) := by
  by_cases hage : now - m.tickedAt ≤ tickNanos
  · simp only [tickUpTo, ticksDue, if_pos hage, tickTimes_zero]
  · have htick : now - (now - m.tickedAt) % tickNanos =
        m.tickedAt + (now - m.tickedAt) / tickNanos * tickNanos := by
      simp only [tickNanos] at hage ⊢
      omega
    simp only [tickUpTo, ticksDue, if_neg hage, tickTimes, htick]

theorem mark_eq (m : Meter α) (now : Nat) (n : Int64) : m.mark now n = (m.tickUpTo now).tally n := rfl

theorem count_tickUpTo (m : Meter α) (now : Nat) : (m.tickUpTo now).count = m.count := by
  simp only [tickUpTo]
  split <;> rfl

theorem count_mark (m : Meter α) (now : Nat) (n : Int64) : (m.mark now n).count = m.count + n :=
  congrArg (· + n) (count_tickUpTo m now)

theorem poisoned_tickUpTo (m : Meter α) (now : Nat) : (m.tickUpTo now).poisoned = m.poisoned := by
  simp only [tickUpTo]
  split <;> rfl

theorem poisoned_mark (m : Meter α) (now : Nat) (n : Int64) :
    (m.mark now n).poisoned = (m.poisoned || !decide ((m.tickUpTo now).HasRoom n)) :=
  congrArg (· || !decide ((m.tickUpTo now).HasRoom n)) (poisoned_tickUpTo m now)

theorem average_tickTimes (m : Meter α) (k : Nat) (h : Horizon) :
    (m.tickTimes k).average h = (m.average h).ticks k := by
  cases h <;> rfl

omit [Scalar α] in
theorem average_tally (m : Meter α) (n : Int64) (h : Horizon) : (m.tally n).average h = (m.average h).count n := by
  cases h <;> rfl

theorem tickedAt_tickTimes (m : Meter α) (k : Nat) : (m.tickTimes k).tickedAt = m.tickedAt + k * tickNanos := rfl

theorem tickedAt_tickUpTo_le (m : Meter α) (now : Nat) (h : m.tickedAt ≤ now) : (m.tickUpTo now).tickedAt ≤ now := by
  rw [tickUpTo_eq, tickedAt_tickTimes, ticksDue]
  split
  · omega
  · simp only [tickNanos]
    omega

theorem onEdge_tickUpTo (m : Meter α) (now : Nat) :
    (m.tickUpTo now).onEdge now = m.onEdge now := by
  have hdue : now = m.tickedAt + m.ticksDue now * tickNanos + tickNanos ↔ now = m.tickedAt + tickNanos := by
    by_cases hage : now - m.tickedAt ≤ tickNanos
    · rw [ticksDue, if_pos hage, Nat.zero_mul, Nat.add_zero]
    · rw [ticksDue, if_neg hage]
      simp only [tickNanos] at hage ⊢
      omega
  rw [tickUpTo_eq, onEdge, onEdge, tickedAt_tickTimes, Bool.eq_iff_iff]
  simpa only [beq_iff_eq] using hdue

def settle (m : Meter α) (now : Nat) (edge : Bool) : Meter α :=
  m.tickTimes ((now - m.tickedAt) / tickNanos - edge.toNat)

theorem tickUpTo_tickTimes (m : Meter α) (k now : Nat) (h : (m.tickTimes k).tickedAt ≤ now) :
    (m.tickTimes k).tickUpTo now = m.settle now ((m.tickTimes k).onEdge now) := by
  rw [tickUpTo_eq, tickTimes_add, add_ticksDue _ m.tickedAt k now (tickedAt_tickTimes m k) h, settle]

def marks : List (Nat × Use) → List (Nat × Int64)
  | [] => []
  | (t, .mark n) :: rest => (t, n) :: marks rest
  | (_, .read _) :: rest => marks rest

def InOrder (start : Nat) (uses : List (Nat × Use)) (now : Nat) : Prop :=
  (start :: (uses.map Prod.fst ++ [now])).IsChain (· ≤ ·)

def showings : Meter α → List (Nat × Use) → Nat → List (Meter α)
  | m, [], now => [m.tickUpTo now]
  | m, (t, .mark n) :: rest, now => m.mark t n :: (m.mark t n).showings rest now
  | m, (t, .read h) :: rest, now => (m.use t (.read h)).showings rest now

def edges : Meter α → List (Nat × Use) → Nat → List Bool
  | m, [], now => [m.onEdge now]
  | m, (t, .mark n) :: rest, now => m.onEdge t :: (m.mark t n).edges rest now
  | m, (t, .read h) :: rest, now => (m.use t (.read h)).edges rest now

def ticksIn : Meter α → List (Nat × Use) → Nat → Nat
  | m, [], now => m.ticksDue now
  | m, (t, u) :: rest, now => m.ticksDue t + (m.use t u).ticksIn rest now

def usedFor (m : Meter α) (uses : List (Nat × Use)) : Meter α := uses.foldl (fun m u => m.use u.1 u.2) m

def replay : Meter α → List (Nat × Int64) → List Bool → Nat → List (Meter α)
  | m, [], edges, now => [m.settle now (edges.headD false)]
  | m, (t, n) :: rest, edges, now =>
    (m.settle t (edges.headD false)).tally n ::
      ((m.settle t (edges.headD false)).tally n).replay rest edges.tail now

theorem InOrder.head {start t now : Nat} {u : Use} {rest : List (Nat × Use)}
    (h : InOrder start ((t, u) :: rest) now) : start ≤ t ∧ InOrder t rest now := List.isChain_cons_cons.mp h

theorem InOrder.of_le {start t now : Nat} {uses : List (Nat × Use)} (h : InOrder t uses now) (hs : start ≤ t) :
    InOrder start uses now := by
  cases uses with
  | nil => exact List.isChain_cons_cons.mpr ⟨hs.trans (List.isChain_cons_cons.mp h).1, .singleton _⟩
  | cons u rest => exact List.isChain_cons_cons.mpr ⟨hs.trans h.head.1, h.head.2⟩

theorem InOrder.last {start now : Nat} (h : InOrder start [] now) : start ≤ now := (List.isChain_cons_cons.mp h).1

theorem use_read (m : Meter α) (t : Nat) (h : Horizon) : m.use t (.read h) = m.tickUpTo t := rfl

theorem tickedAt_mark (m : Meter α) (t : Nat) (n : Int64) : (m.mark t n).tickedAt = (m.tickUpTo t).tickedAt := rfl

theorem showings_eq_replay (m : Meter α) (k : Nat) (uses : List (Nat × Use)) (now : Nat)
    (h : InOrder (m.tickTimes k).tickedAt uses now) :
    (m.tickTimes k).showings uses now = m.replay (marks uses) ((m.tickTimes k).edges uses now) now := by
  -- `k` is how far reads have taken the meter since its last mark. From a mark on it is zero again.
  induction uses generalizing m k with
  | nil =>
    rw [showings, marks, edges, replay, List.headD_cons, tickUpTo_tickTimes m k now h.last]
  | cons u rest ih =>
    obtain ⟨t, u⟩ := u
    obtain ⟨ht, hrest⟩ := h.head
    cases u with
    | mark n =>
      have hmark : (m.tickTimes k).mark t n = (m.settle t ((m.tickTimes k).onEdge t)).tally n := by
        rw [mark_eq, tickUpTo_tickTimes m k t ht]
      have hnext := ih ((m.tickTimes k).mark t n) 0
        (by rw [tickTimes_zero, tickedAt_mark]; exact hrest.of_le (tickedAt_tickUpTo_le _ t ht))
      rw [tickTimes_zero] at hnext
      rw [showings, marks, edges, replay, List.headD_cons, List.tail_cons, hnext, hmark]
    | read h =>
      have hread : (m.tickTimes k).tickUpTo t = m.tickTimes (k + (m.tickTimes k).ticksDue t) := by
        rw [tickUpTo_eq, tickTimes_add]
      rw [showings, marks, edges, use_read, hread]
      exact ih m _ (by rw [← hread]; exact hrest.of_le (tickedAt_tickUpTo_le _ t ht))

theorem edges_eq_zipWith (m : Meter α) (uses : List (Nat × Use)) (now : Nat) :
    m.edges uses now =
      List.zipWith (fun t m => m.onEdge t) ((marks uses).map Prod.fst ++ [now]) (m.showings uses now) := by
  induction uses generalizing m with
  | nil =>
    rw [edges, showings, marks, List.map_nil, List.nil_append, List.zipWith_cons_cons, List.zipWith_nil_left,
      onEdge_tickUpTo]
  | cons u rest ih =>
    obtain ⟨t, u⟩ := u
    cases u with
    | mark n =>
      have hedge : (m.mark t n).onEdge t = m.onEdge t := onEdge_tickUpTo m t
      rw [edges, showings, marks, List.map_cons, List.cons_append, List.zipWith_cons_cons, hedge, ih]
    | read h => rw [edges, showings, marks, ih]

theorem tickedAt_use (m : Meter α) (t : Nat) (u : Use) :
    (m.use t u).tickedAt = m.tickedAt + m.ticksDue t * tickNanos := by
  rw [← tickedAt_tickTimes, ← tickUpTo_eq]
  cases u <;> rfl

theorem tickedAt_use_le (m : Meter α) (t : Nat) (u : Use) (h : m.tickedAt ≤ t) : (m.use t u).tickedAt ≤ t := by
  rw [tickedAt_use, ← tickedAt_tickTimes, ← tickUpTo_eq]
  exact tickedAt_tickUpTo_le m t h

theorem ticksIn_eq (m : Meter α) (start k : Nat) (uses : List (Nat × Use)) (now : Nat)
    (hk : m.tickedAt = start + k * tickNanos) (h : InOrder m.tickedAt uses now) :
    k + m.ticksIn uses now = (now - start) / tickNanos - ((m.usedFor uses).onEdge now).toNat ∧
      ((m.usedFor uses).onEdge now).toNat ≤ (now - start) / tickNanos := by
  induction uses generalizing m k with
  | nil => exact ⟨add_ticksDue m start k now hk h.last, toNat_onEdge_le m start k now hk⟩
  | cons u rest ih =>
    obtain ⟨t, u⟩ := u
    obtain ⟨ht, hrest⟩ := h.head
    have hnext : (m.use t u).tickedAt = start + (k + m.ticksDue t) * tickNanos := by
      rw [tickedAt_use, hk, Nat.add_mul, Nat.add_assoc]
    have hticks := ih (m.use t u) (k + m.ticksDue t) hnext (hrest.of_le (tickedAt_use_le m t u ht))
    rw [Nat.add_assoc] at hticks
    exact hticks

theorem getLast?_showings (m : Meter α) (uses : List (Nat × Use)) (now : Nat) :
    (m.showings uses now).getLast? = some ((m.usedFor uses).tickUpTo now) := by
  induction uses generalizing m with
  | nil => rfl
  | cons u rest ih =>
    obtain ⟨t, u⟩ := u
    cases u with
    | mark n =>
      rw [showings, List.getLast?_cons, ih]
      rfl
    | read h =>
      rw [showings, ih]
      rfl

theorem edges_of_clear (m : Meter α) (start k since : Nat) (uses : List (Nat × Use)) (now : Nat)
    (hk : m.tickedAt = start + k * tickNanos) (hsince : k = 0 ∨ start + tickNanos < since)
    (hle : m.tickedAt ≤ since) (h : InOrder since uses now)
    (hclear : ∀ t ∈ (marks uses).map Prod.fst ++ [now], tickNanos ∣ t - start → t ≤ start + tickNanos) :
    m.edges uses now = ((marks uses).map Prod.fst ++ [now]).map (fun t => t == start + tickNanos) := by
  induction uses generalizing m k since with
  | nil =>
    have hlast := onEdge_of_clear m start k since now hk hsince h.last (hclear now (by simp))
    simp [edges, marks, hlast]
  | cons u rest ih =>
    obtain ⟨t, u⟩ := u
    obtain ⟨ht, hrest⟩ := h.head
    have hnext : (m.use t u).tickedAt = start + (k + m.ticksDue t) * tickNanos := by
      rw [tickedAt_use, hk, Nat.add_mul, Nat.add_assoc]
    have hpassed : k + m.ticksDue t = 0 ∨ start + tickNanos < t := by
      by_cases hdue : m.ticksDue t = 0
      · rw [hdue]
        exact hsince.imp_right (fun hs => hs.trans_le ht)
      · have hlt := lt_of_ticksDue_ne_zero m t hdue
        exact .inr (by omega)
    have hrest' := ih (m.use t u) (k + m.ticksDue t) t hnext hpassed (tickedAt_use_le m t u (hle.trans ht)) hrest
    cases u with
    | mark n =>
      have hmark := onEdge_of_clear m start k since t hk hsince ht (hclear t (by simp [marks]))
      have htail := hrest' (fun s hs => hclear s (by rw [marks, List.map_cons, List.cons_append]; exact .tail t hs))
      rw [edges, marks, hmark]
      exact congrArg _ htail
    | read h => exact hrest' hclear

end Meter

namespace Timer

inductive Use
  | record (span : Span)
  | read (h : Horizon)

def Use.onMeter : Use → Meter.Use
  | .record _ => .mark 1
  | .read h => .read h

variable {α : Type} [Scalar α]

def update (t : Timer α) (now : Nat) (span : Span) : Timer α where
  histogram := t.histogram.update (sampleOf span)
  meter := t.meter.mark now 1

def use (t : Timer α) (now : Nat) : Use → Timer α
  | .record span => t.update now span
  | .read h => { t with meter := (t.meter.readRate now h).2 }

def usedFor (t : Timer α) (uses : List (Nat × Use)) : Timer α := uses.foldl (fun t u => t.use u.1 u.2) t

theorem meter_usedFor (t : Timer α) (uses : List (Nat × Use)) :
    (t.usedFor uses).meter = t.meter.usedFor (uses.map fun u => (u.1, u.2.onMeter)) := by
  induction uses generalizing t with
  | nil => rfl
  | cons u rest ih =>
    obtain ⟨now, u⟩ := u
    have hnext := ih (t.use now u)
    cases u <;> exact hnext

end Timer

namespace Meter

variable {α : Type} [Scalar α]

theorem ticksIn_eq_iff (m : Meter α) (one other : List (Nat × Use)) (now : Nat)
    (hone : InOrder m.tickedAt one now) (hother : InOrder m.tickedAt other now) :
    m.ticksIn one now = m.ticksIn other now ↔ (m.usedFor one).onEdge now = (m.usedFor other).onEdge now := by
  have hbase : m.tickedAt = m.tickedAt + 0 * tickNanos := by rw [Nat.zero_mul, Nat.add_zero]
  obtain ⟨h, hle⟩ := ticksIn_eq m m.tickedAt 0 one now hbase hone
  obtain ⟨h', hle'⟩ := ticksIn_eq m m.tickedAt 0 other now hbase hother
  rw [Nat.zero_add] at h h'
  rw [h, h']
  constructor
  · intro heq
    have hinj : ∀ b c : Bool, b.toNat = c.toNat → b = c := by decide
    exact hinj _ _ (by omega)
  · intro heq
    rw [heq]

theorem edges_eq_of_clear (m : Meter α) (one other : List (Nat × Use)) (now : Nat)
    (hone : InOrder m.tickedAt one now) (hother : InOrder m.tickedAt other now) (hmarks : marks one = marks other)
    (hclear : ∀ t ∈ (marks one).map Prod.fst ++ [now],
      tickNanos ∣ t - m.tickedAt → t ≤ m.tickedAt + tickNanos) :
    m.edges one now = m.edges other now := by
  have hbase : m.tickedAt = m.tickedAt + 0 * tickNanos := by rw [Nat.zero_mul, Nat.add_zero]
  rw [edges_of_clear m m.tickedAt 0 m.tickedAt one now hbase (.inl rfl) (le_refl _) hone hclear]
  rw [hmarks] at hclear ⊢
  exact (edges_of_clear m m.tickedAt 0 m.tickedAt other now hbase (.inl rfl) (le_refl _) hother hclear).symm

/-- Two runs of a meter with the same marks, each with looks of its own at the rates, show the same meter at every
instant at which both are used exactly if at each of these instants both or neither are found on the edge. They have
ticked equally often at the end exactly if that holds at the end. It does hold away from the ends of all intervals
but the first. A timer's meter runs so with a mark for each recording. -/
theorem showings_eq_iff_edges_eq (m : Meter α) (one other : List (Nat × Use)) (now : Nat)
    (hone : InOrder m.tickedAt one now) (hother : InOrder m.tickedAt other now) (hmarks : marks one = marks other) :
    (m.showings one now = m.showings other now ↔ m.edges one now = m.edges other now) ∧
      (m.ticksIn one now = m.ticksIn other now ↔
        (m.usedFor one).onEdge now = (m.usedFor other).onEdge now) ∧
      (m.edges one now = m.edges other now →
        ∀ h, (m.usedFor one).readRate now h = (m.usedFor other).readRate now h) ∧
      ((∀ t ∈ (marks one).map Prod.fst ++ [now], tickNanos ∣ t - m.tickedAt → t ≤ m.tickedAt + tickNanos) →
        m.edges one now = m.edges other now) ∧
      ∀ (timer : Timer α) (uses : List (Nat × Timer.Use)),
        (timer.usedFor uses).meter = timer.meter.usedFor (uses.map fun u => (u.1, u.2.onMeter)) := by
  have hsame : m.edges one now = m.edges other now → m.showings one now = m.showings other now := by
    intro hedges
    have h := showings_eq_replay m 0 one now (by rw [tickTimes_zero]; exact hone)
    have h' := showings_eq_replay m 0 other now (by rw [tickTimes_zero]; exact hother)
    rw [tickTimes_zero] at h h'
    rw [h, h', hmarks, hedges]
  refine ⟨⟨?_, hsame⟩, ticksIn_eq_iff m one other now hone hother, ?_, ?_, Timer.meter_usedFor⟩
  · intro hshowings
    rw [edges_eq_zipWith, edges_eq_zipWith, hmarks, hshowings]
  · intro hedges h
    have hlast : some ((m.usedFor one).tickUpTo now) = some ((m.usedFor other).tickUpTo now) := by
      rw [← getLast?_showings, ← getLast?_showings, hsame hedges]
    rw [readRate, readRate, Option.some.inj hlast]
  · exact edges_eq_of_clear m one other now hone hother hmarks

theorem showings_eq_iff_edges_eq_with_a_read :
    let m := Meter.startedAt 0
    let one : List (Nat × Use) := [(1, .mark 3), (6000000000, .read .m1), (12000000000, .mark 2)]
    let other : List (Nat × Use) := [(1, .mark 3), (12000000000, .mark 2)]
    m.showings one 21000000000 = m.showings other 21000000000 ∧
      m.ticksIn one 21000000000 = m.ticksIn other 21000000000 := by
  intro m one other
  obtain ⟨hshowings, hticks, -, hclear, -⟩ := showings_eq_iff_edges_eq m one other 21000000000
    (by unfold InOrder; decide) (by unfold InOrder; decide) rfl
  exact ⟨hshowings.mpr (hclear (by decide)), hticks.mpr (by decide)⟩

theorem read_delays_tick :
    ¬ ∀ (m : Meter Float) (one other : List (Nat × Use)) (now : Nat), InOrder m.tickedAt one now →
      InOrder m.tickedAt other now → marks one = marks other →
      m.ticksIn one now = m.ticksIn other now ∧
        ∀ h, (m.usedFor one).readRate now h = (m.usedFor other).readRate now h := by
  intro h
  have hticks := (h (Meter.startedAt 0) [(0, .mark 3)] [(0, .mark 3), (5000000001, .read .m1)] 10000000000
    (by unfold InOrder; decide) (by unfold InOrder; decide) rfl).1
  exact absurd hticks (by decide)

end Meter

end MetricReporting
