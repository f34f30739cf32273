import MetricReporting.Failure

namespace MetricReporting.Word

def Holds (n : Int) : Prop := Int64.minValue.toInt ≤ n ∧ n ≤ Int64.maxValue.toInt

instance (n : Int) : Decidable (Holds n) := inferInstanceAs (Decidable (_ ∧ _))

theorem holds_iff (n : Int) : Holds n ↔ -9223372036854775808 ≤ n ∧ n ≤ 9223372036854775807 := Iff.rfl

theorem holds_toInt (a : Int64) : Holds a.toInt := by
  have hle := a.le_toInt
  have hlt := a.toInt_lt
  rw [holds_iff]
  omega

theorem toInt_add_eq_iff (a b : Int64) : (a + b).toInt = a.toInt + b.toInt ↔ Holds (a.toInt + b.toInt) := by
  constructor
  · intro h
    rw [← h]
    exact holds_toInt _
  · intro h
    rw [holds_iff] at h
    rw [Int64.toInt_add]
    exact Int.bmod_eq_of_le (by omega) (by omega)

theorem toInt_sub_eq_iff (a b : Int64) : (a - b).toInt = a.toInt - b.toInt ↔ Holds (a.toInt - b.toInt) := by
  constructor
  · intro h
    rw [← h]
    exact holds_toInt _
  · intro h
    rw [holds_iff] at h
    rw [Int64.toInt_sub]
    exact Int.bmod_eq_of_le (by omega) (by omega)

def addOverflow : Panic := .text "attempt to add with overflow"

def subtractOverflow : Panic := .text "attempt to subtract with overflow"

def subtract (a b : Int64) : Except Panic Int64 :=
  if Holds (a.toInt - b.toInt) then .ok (a - b) else .error subtractOverflow

theorem subtract_of_holds {a b : Int64} (h : Holds (a.toInt - b.toInt)) : subtract a b = .ok (a - b) := if_pos h

theorem subtract_of_not_holds {a b : Int64} (h : ¬ Holds (a.toInt - b.toInt)) :
    subtract a b = .error subtractOverflow := if_neg h

end MetricReporting.Word
