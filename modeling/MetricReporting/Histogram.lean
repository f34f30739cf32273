import MetricReporting.Failure
import MetricReporting.Sample

namespace MetricReporting

/-- A histogram shows at most `window` values. It holds on to some older ones for a while, so that it seldom has to
cut them off. -/
structure Histogram where
  window : Nat
  count : Int64 := 0
  held : List Int64 := []
  load : Nat := 0
  window_pos : 0 < window
deriving DecidableEq

namespace Histogram

def ofWindow (window : Nat) : Histogram :=
  { window := max window 1, window_pos := by omega }

/-- No memory holds as many values as this: they take eight bytes each, and a signed word counts the bytes. -/
def roomLimit : Nat := Nat.pow 2 60

def allocate (window : Nat) : Except Panic Histogram :=
  if window < roomLimit then .ok (ofWindow window) else .error (.text "capacity overflow")

def empty : Histogram := ofWindow 1028

instance : Inhabited Histogram := ⟨empty⟩

def samples (h : Histogram) : List Int64 := (h.held.take h.window).reverse

def update (h : Histogram) (value : Int64) : Histogram :=
  if h.load + 1 < 2 * h.window then
    { h with count := h.count + 1, held := value :: h.held, load := h.load + 1 }
  else
    { h with count := h.count + 1, held := value :: h.held.take (h.window - 1), load := h.window }

theorem window_update (h : Histogram) (value : Int64) : (h.update value).window = h.window := by
  unfold update
  split <;> rfl

theorem samples_update (h : Histogram) (value : Int64) :
    (h.update value).samples =
      (if h.samples.length = h.window then h.samples.drop 1 else h.samples) ++ [value] := by
  have hw := h.window_pos
  have latest : (h.update value).samples = (h.held.take (h.window - 1)).reverse ++ [value] := by
    unfold samples update
    obtain ⟨w, hw'⟩ : ∃ w, h.window = w + 1 := ⟨h.window - 1, by omega⟩
    split <;> simp [hw', List.take_take]
  rw [latest]
  unfold samples
  split
  · rename_i full
    rw [List.drop_reverse, List.take_take]
    simp at full
    congr 3
    simp
    omega
  · rename_i room
    simp at room
    rw [List.take_of_length_le (by omega), List.take_of_length_le (by omega)]

def sample (h : Histogram) : Sample := Sample.ofList h.samples

end Histogram

end MetricReporting
