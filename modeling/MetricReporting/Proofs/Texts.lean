import Mathlib.Data.List.DropRight
import Mathlib.Data.List.TakeWhile
import MetricReporting.Text

namespace MetricReporting

namespace Text

section

variable {separator : Char}

theorem pieces_ne_nil (cs : List Char) : pieces separator cs ≠ [] := by
  cases cs with
  | nil => nofun
  | cons c rest =>
    rw [pieces]
    split
    · nofun
    · split <;> nofun

theorem pieces_cons_of_ne {c : Char} (h : c ≠ separator) (rest : List Char) :
    pieces separator (c :: rest) = (pieces separator rest).modifyHead (c :: ·) := by
  rw [pieces, if_neg h]
  cases hpieces : pieces separator rest with
  | nil => exact absurd hpieces (pieces_ne_nil rest)
  | cons piece others => rfl

theorem pieces_eq_splitOn (cs : List Char) : pieces separator cs = cs.splitOn separator := by
  rw [List.splitOn_eq_splitOnP]
  induction cs with
  | nil => simp [pieces]
  | cons c rest ih =>
    rw [List.splitOnP_cons_eq_if_modifyHead]
    by_cases h : c = separator
    · simp [pieces, h, ih]
    · simp [pieces_cons_of_ne h, h, ih]

theorem pieces_append_cons (before after : List Char) :
    pieces separator (before ++ separator :: after) = pieces separator before ++ pieces separator after := by
  simp only [pieces_eq_splitOn, List.splitOn_eq_splitOnP]
  exact List.splitOnP_append_cons before after (beq_self_eq_true separator)

theorem pieces_of_not_mem {piece : List Char} (h : separator ∉ piece) : pieces separator piece = [piece] := by
  induction piece with
  | nil => rfl
  | cons c rest ih =>
    rw [List.mem_cons, not_or] at h
    rw [pieces, if_neg (Ne.symm h.1), ih h.2]

theorem pieces_of_ended (l : List (List Char)) (h : ∀ piece ∈ l, separator ∉ piece) :
    pieces separator (l.flatMap (· ++ [separator])) = l ++ [[]] := by
  induction l with
  | nil => rfl
  | cons piece rest ih =>
    obtain ⟨hpiece, hrest⟩ := List.forall_mem_cons.mp h
    rw [List.flatMap_cons, List.append_assoc, List.singleton_append, pieces_append_cons, pieces_of_not_mem hpiece,
      ih hrest]
    rfl

theorem pieces_intercalate {l : List (List Char)} (hne : l ≠ []) (h : ∀ piece ∈ l, separator ∉ piece) :
    pieces separator ([separator].intercalate l) = l := by
  rw [pieces_eq_splitOn, List.splitOn_intercalate separator h hne]

theorem not_mem_of_mem_pieces {cs piece : List Char} (h : piece ∈ pieces separator cs) : separator ∉ piece := by
  induction cs generalizing piece with
  | nil =>
    rw [List.mem_singleton.mp h]
    exact List.not_mem_nil
  | cons c rest ih =>
    by_cases hc : c = separator
    · rw [pieces, if_pos hc] at h
      rcases List.mem_cons.mp h with rfl | hrest
      · exact List.not_mem_nil
      · exact ih hrest
    · rw [pieces_cons_of_ne hc] at h
      cases hpieces : pieces separator rest with
      | nil => exact absurd hpieces (pieces_ne_nil rest)
      | cons first others =>
        rw [hpieces] at h ih
        rcases List.mem_cons.mp h with rfl | hothers
        · exact List.not_mem_cons_of_ne_of_not_mem (Ne.symm hc) (ih List.mem_cons_self)
        · exact ih (List.mem_cons_of_mem _ hothers)

theorem cut?_of_not_mem {before : List Char} (h : separator ∉ before) (after : List Char) :
    cut? separator (before ++ separator :: after) = some (before, after) := by
  induction before with
  | nil => simp [cut?]
  | cons c rest ih =>
    rw [List.mem_cons, not_or] at h
    rw [List.cons_append, cut?, if_neg (Ne.symm h.1), ih h.2]
    rfl

theorem cut?_eq_none_iff {cs : List Char} : cut? separator cs = none ↔ separator ∉ cs := by
  induction cs with
  | nil => simp [cut?]
  | cons c rest ih =>
    rw [cut?, List.mem_cons, not_or, eq_comm (a := separator)]
    split
    · simp_all
    · simp_all

end

def IsBlank (name : String) : Prop := ∀ c ∈ name.toList, isBlank c = true

theorem isEmpty_stripped_iff (cs : List Char) : (stripped cs).isEmpty = true ↔ ∀ c ∈ cs, isBlank c = true := by
  have hempty : (stripped cs).isEmpty = true ↔ ∀ c ∈ cs.dropWhile isBlank, isBlank c = true := by
    simp [stripped, List.dropWhile_eq_nil_iff]
  rw [hempty]
  constructor
  · intro h
    cases hdrop : cs.dropWhile isBlank with
    | nil => exact List.dropWhile_eq_nil_iff.mp hdrop
    | cons c rest =>
      have hvisible : isBlank c = false := by
        have hhead := List.head?_dropWhile_not isBlank cs
        rw [hdrop] at hhead
        simpa using hhead
      have hblank := h c (by rw [hdrop]; exact List.mem_cons_self)
      rw [hvisible] at hblank
      cases hblank
  · intro h c hc
    exact h c ((List.dropWhile_sublist _).subset hc)

theorem stripped_eq (cs : List Char) : stripped cs = (cs.dropWhile isBlank).rdropWhile isBlank := rfl

theorem stripped_subset (cs : List Char) : stripped cs ⊆ cs :=
  List.Subset.trans (List.rdropWhile_prefix isBlank _).subset (List.dropWhile_sublist isBlank).subset

theorem exists_rdropWhile_append (cs : List Char) :
    ∃ back, (∀ c ∈ back, isBlank c = true) ∧ cs = cs.rdropWhile isBlank ++ back := by
  refine ⟨(cs.reverse.takeWhile isBlank).reverse, ?_, ?_⟩
  · intro c hc
    exact List.mem_takeWhile_imp (List.mem_reverse.mp hc)
  · rw [List.rdropWhile, ← List.reverse_append, List.takeWhile_append_dropWhile, List.reverse_reverse]

theorem rdropWhile_append_of_blank (cs : List Char) {back : List Char} (h : ∀ c ∈ back, isBlank c = true) :
    (cs ++ back).rdropWhile isBlank = cs.rdropWhile isBlank := by
  have hback : ∀ c ∈ back.reverse, isBlank c = true := fun c hc => h c (List.mem_reverse.mp hc)
  rw [List.rdropWhile, List.reverse_append, List.dropWhile_append_of_pos hback]
  rfl

theorem stripped_dropWhile (cs : List Char) : stripped (cs.dropWhile isBlank) = stripped cs := by
  rw [stripped_eq, List.dropWhile_idempotent]
  rfl

theorem stripped_append_of_blank (cs : List Char) {back : List Char} (h : ∀ c ∈ back, isBlank c = true) :
    stripped (cs ++ back) = stripped cs := by
  rw [stripped_eq, stripped_eq, List.dropWhile_append]
  split
  · rename_i hempty
    rw [List.isEmpty_iff.mp hempty, List.dropWhile_eq_nil_iff.mpr h]
  · exact rdropWhile_append_of_blank _ h

theorem stripped_rdropWhile (cs : List Char) : stripped (cs.rdropWhile isBlank) = stripped cs := by
  obtain ⟨back, hback, hcs⟩ := exists_rdropWhile_append cs
  have hwhole := stripped_append_of_blank (cs.rdropWhile isBlank) hback
  rw [← hcs] at hwhole
  exact hwhole.symm

theorem stripped_stripped (cs : List Char) : stripped (stripped cs) = stripped cs := by
  rw [stripped_eq cs, stripped_rdropWhile, stripped_dropWhile]
  rfl

theorem dropWhile_append_cons {c : Char} (h : isBlank c = false) (before after : List Char) :
    (before ++ c :: after).dropWhile isBlank = before.dropWhile isBlank ++ c :: after := by
  have hc : (c :: after).dropWhile isBlank = c :: after := List.dropWhile_cons_of_neg (by simp [h])
  rw [List.dropWhile_append, hc]
  split
  · rename_i hempty
    rw [List.isEmpty_iff.mp hempty, List.nil_append]
  · rfl

theorem stripped_append_cons {c : Char} (h : isBlank c = false) (before after : List Char) :
    stripped (before ++ c :: after) = before.dropWhile isBlank ++ c :: after.rdropWhile isBlank := by
  have hback := dropWhile_append_cons h after.reverse (before.dropWhile isBlank).reverse
  rw [stripped, dropWhile_append_cons h, List.reverse_append, List.reverse_cons, List.append_assoc,
    List.singleton_append, hback]
  simp [List.rdropWhile]

end Text

end MetricReporting
