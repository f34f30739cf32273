import MetricReporting.Span
/-!
Tickers: when the ticks of a schedule come, and what a late tick does to those after it. Instants are in nanoseconds
since some start.
-/
namespace MetricReporting

/-- What tickers depend on outside the program: the machine's clock, and the timers that run by it. -/
structure Runtime where
  origin : Nat
  spacing : Nat → Nat
  spacing_pos : ∀ period, 0 < period → 0 < spacing period

namespace Runtime

/-- A runtime as programs are seen to meet it: on a machine that has been up for a day, with ticks no further apart than
thirty years of 365 days. -/
def observed : Runtime where
  origin := (Span.ofSeconds 86400).nanos
  spacing period := min period (Span.ofSeconds (30 * 365 * 86400)).nanos
  spacing_pos _ h := Nat.lt_min.mpr ⟨h, by decide⟩

/-- Clocks count their seconds in a signed word, and an instant past that is never reached. -/
def isBeyondReach (r : Runtime) (now : Nat) (period : Span) : Bool :=
  (Span.ofSeconds (Nat.pow 2 63)).nanos ≤ r.origin + now + period.nanos

end Runtime

structure Ticker where
  period : Nat
  due : Nat
  period_pos : 0 < period

namespace Ticker

def startedAt (r : Runtime) (now period : Nat) (h : 0 < period) : Ticker where
  period := r.spacing period
  due := now + period
  period_pos := r.spacing_pos period h

def later (t : Ticker) (n : Nat) : Ticker := { t with due := t.due + n * t.period }

def lateness : Nat := 5000000

def wakeUp (t : Ticker) : Nat := (t.due + 999999) / 1000000 * 1000000

/-- The ticker after a tick at an instant. After a late tick the next is due at the first multiple of the period
that is past that instant. -/
def next (t : Ticker) (now : Nat) : Ticker :=
  { t with
    due := if lateness < now - t.due then now + t.period - (now - t.due) % t.period else t.due + t.period }

theorem due_le_wakeUp (t : Ticker) : t.due ≤ t.wakeUp := by
  unfold wakeUp
  omega

theorem due_lt_due_next (t : Ticker) (now : Nat) : t.due < (t.next now).due := by
  have h := t.period_pos
  simp only [next]
  split
  · have := Nat.mod_lt (now - t.due) h
    have := Nat.mod_le (now - t.due) t.period
    omega
  · omega

theorem left_lt {deadline a b : Nat} (ha : a < deadline) (hab : a < b) : deadline - b < deadline - a := by omega

/-- The instants of the ticks from now on before a deadline, each when its timer wakes up, and the ticker after
them. What waits for the deadline goes first, so a tick at the deadline itself is not among them. -/
def before (t : Ticker) (now deadline : Nat) : List Nat × Ticker :=
  if _ : t.wakeUp < deadline then
    let instant := max now t.wakeUp
    let (instants, last) := (t.next instant).before instant deadline
    (instant :: instants, last)
  else ([], t)
termination_by deadline - t.due
decreasing_by exact left_lt (Nat.lt_of_le_of_lt t.due_le_wakeUp ‹_›) (t.due_lt_due_next _)

end Ticker

end MetricReporting
