/-!
Finite maps from names. A map is the list of its entries in strictly ascending order of the name, so there is
one map for each assignment of values to names: maps that answer every look-up alike are equal
(`NameMap.ext_get?`).
-/
namespace MetricReporting

/-- Entries whose names strictly ascend. -/
structure NameMap (α : Type) where
  entries : List (String × α)
  ascending : entries.Pairwise (fun a b => a.1 < b.1)

namespace NameMap

variable {α β : Type}

instance [DecidableEq α] : DecidableEq (NameMap α) := fun a b =>
  if h : a.entries = b.entries then
    isTrue (by cases a; cases b; cases h; rfl)
  else isFalse (fun e => h (congrArg entries e))

def empty : NameMap α := ⟨[], .nil⟩

instance : Inhabited (NameMap α) := ⟨empty⟩

def names (m : NameMap α) : List String := m.entries.map (·.1)

def size (m : NameMap α) : Nat := m.entries.length

def isEmpty (m : NameMap α) : Bool := m.entries.isEmpty

def lookup (name : String) : List (String × α) → Option α
  | [] => none
  | (k, v) :: rest => if k = name then some v else lookup name rest

def get? (m : NameMap α) (name : String) : Option α := lookup name m.entries

def contains (m : NameMap α) (name : String) : Bool := (m.get? name).isSome

def place (name : String) (value : α) : List (String × α) → List (String × α)
  | [] => [(name, value)]
  | (k, v) :: rest =>
    if name < k then (name, value) :: (k, v) :: rest
    else if name = k then (name, value) :: rest
    else (k, v) :: place name value rest

theorem mem_place {name : String} {value : α} {l : List (String × α)} {e : String × α}
    (h : e ∈ place name value l) : e = (name, value) ∨ e ∈ l := by
  induction l with
  | nil => simpa [place] using h
  | cons a rest ih =>
    simp only [place] at h
    split at h
    · simpa using h
    · split at h
      · rcases List.mem_cons.1 h with h | h
        · exact .inl h
        · exact .inr (List.mem_cons_of_mem _ h)
      · rcases List.mem_cons.1 h with h | h
        · exact .inr (h ▸ List.mem_cons_self)
        · exact (ih h).imp_right (List.mem_cons_of_mem _)

theorem lt_of_not_lt_of_ne {a b : String} (h : ¬ a < b) (hne : a ≠ b) : b < a := by
  rcases Decidable.em (b < a) with hb | hb
  · exact hb
  · exact absurd (String.le_antisymm (String.not_lt.1 hb) (String.not_lt.1 h)) hne

theorem ascending_place (name : String) (value : α) {l : List (String × α)}
    (h : l.Pairwise (fun a b => a.1 < b.1)) :
    (place name value l).Pairwise (fun a b => a.1 < b.1) := by
  induction l with
  | nil => simp [place]
  | cons a rest ih =>
    obtain ⟨ha, hrest⟩ := List.pairwise_cons.1 h
    simp only [place]
    split
    · rename_i hlt
      refine List.pairwise_cons.2 ⟨fun b hb => ?_, h⟩
      rcases List.mem_cons.1 hb with rfl | hb
      · exact hlt
      · exact String.lt_trans hlt (ha b hb)
    · rename_i hnlt
      split
      · rename_i heq
        exact List.pairwise_cons.2 ⟨fun b hb => by rw [heq]; exact ha b hb, hrest⟩
      · rename_i hne
        refine List.pairwise_cons.2 ⟨fun b hb => ?_, ih hrest⟩
        rcases mem_place hb with rfl | hb
        · exact lt_of_not_lt_of_ne hnlt hne
        · exact ha b hb

def insert (m : NameMap α) (name : String) (value : α) : NameMap α :=
  ⟨place name value m.entries, ascending_place name value m.ascending⟩

def erase (m : NameMap α) (name : String) : NameMap α :=
  ⟨m.entries.filter (fun e => e.1 != name), m.ascending.filter _⟩

def filter (keep : String → α → Bool) (m : NameMap α) : NameMap α :=
  ⟨m.entries.filter (fun e => keep e.1 e.2), m.ascending.filter _⟩

def map (f : α → β) (m : NameMap α) : NameMap β :=
  ⟨m.entries.map (fun e => (e.1, f e.2)), List.pairwise_map.2 m.ascending⟩

def ofList (l : List (String × α)) : NameMap α :=
  l.foldl (fun m e => m.insert e.1 e.2) empty

def overlay (lower upper : NameMap α) : NameMap α :=
  upper.entries.foldl (fun m e => m.insert e.1 e.2) lower

@[simp] theorem get?_empty (name : String) : (empty : NameMap α).get? name = none := rfl

theorem lookup_place (name other : String) (value : α) (l : List (String × α)) :
    lookup other (place name value l) = if name = other then some value else lookup other l := by
  induction l with
  | nil => simp [place, lookup]
  | cons a rest ih =>
    simp only [place]
    split
    · simp [lookup]
    · split
      · rename_i heq
        by_cases h : name = other
        · simp [lookup, h]
        · simp [lookup, h, ← heq]
      · rename_i hne
        by_cases ha : a.1 = other
        · have : name ≠ other := fun h => hne (h.trans ha.symm)
          simp [lookup, ha, this]
        · simp [lookup, ha, ih]

theorem get?_insert (m : NameMap α) (name other : String) (value : α) :
    (m.insert name value).get? other = if name = other then some value else m.get? other :=
  lookup_place name other value m.entries

@[simp] theorem get?_insert_self (m : NameMap α) (name : String) (value : α) :
    (m.insert name value).get? name = some value := by simp [get?_insert]

theorem get?_insert_of_ne (m : NameMap α) {name other : String} (value : α) (h : name ≠ other) :
    (m.insert name value).get? other = m.get? other := by simp [get?_insert, h]

theorem lookup_filter (name other : String) (l : List (String × α)) :
    lookup other (l.filter (fun e => e.1 != name)) = if other = name then none else lookup other l := by
  induction l with
  | nil => simp [lookup]
  | cons a rest ih =>
    by_cases h : other = name
    · subst h
      by_cases ha : a.1 = other
      · simpa [ha] using ih
      · simpa [ha, lookup] using ih
    · by_cases ha : a.1 = name
      · have : name ≠ other := fun e => h e.symm
        simp [ha, ih, h, lookup, this]
      · simp [ha, ih, h, lookup]

theorem get?_erase (m : NameMap α) (name other : String) :
    (m.erase name).get? other = if other = name then none else m.get? other :=
  lookup_filter name other m.entries

theorem mem_of_lookup {name : String} {value : α} {l : List (String × α)}
    (h : lookup name l = some value) : (name, value) ∈ l := by
  induction l with
  | nil => simp [lookup] at h
  | cons a rest ih =>
    simp only [lookup] at h
    split at h
    · rename_i heq
      cases h
      exact heq ▸ List.mem_cons_self
    · exact List.mem_cons_of_mem _ (ih h)

theorem lookup_of_mem {name : String} {value : α} {l : List (String × α)}
    (hasc : l.Pairwise (fun a b => a.1 < b.1)) (h : (name, value) ∈ l) :
    lookup name l = some value := by
  induction l with
  | nil => simp at h
  | cons a rest ih =>
    obtain ⟨ha, hrest⟩ := List.pairwise_cons.1 hasc
    rcases List.mem_cons.1 h with h | h
    · simp [lookup, ← h]
    · have : a.1 ≠ name := fun e => String.lt_irrefl _ (e ▸ ha _ h)
      simp [lookup, this, ih hrest h]

theorem get?_eq_some_iff {m : NameMap α} {name : String} {value : α} :
    m.get? name = some value ↔ (name, value) ∈ m.entries :=
  ⟨mem_of_lookup, lookup_of_mem m.ascending⟩

theorem get?_filter_eq_some_iff {m : NameMap α} {keep : String → α → Bool} {name : String} {value : α} :
    (m.filter keep).get? name = some value ↔ m.get? name = some value ∧ keep name value = true := by
  rw [get?_eq_some_iff, get?_eq_some_iff, filter, List.mem_filter]

theorem get?_foldl_insert {l : List (String × α)} (hl : l.Pairwise (fun a b => a.1 < b.1)) (m : NameMap α)
    (name : String) :
    (l.foldl (fun m e => m.insert e.1 e.2) m).get? name = (lookup name l).or (m.get? name) := by
  induction l generalizing m with
  | nil => rfl
  | cons e rest ih =>
    obtain ⟨he, hrest⟩ := List.pairwise_cons.1 hl
    rw [List.foldl_cons, ih hrest, get?_insert]
    by_cases hname : e.1 = name
    · have hnone : lookup name rest = none := by
        apply Option.eq_none_iff_forall_ne_some.2
        intro value hvalue
        exact String.lt_irrefl _ (hname ▸ he _ (mem_of_lookup hvalue))
      simp [lookup, hname, hnone]
    · simp [lookup, hname]

theorem get?_overlay (lower upper : NameMap α) (name : String) :
    (lower.overlay upper).get? name = (upper.get? name).or (lower.get? name) :=
  get?_foldl_insert upper.ascending lower name

theorem eq_of_ascending {l r : List (String × α)} (hl : l.Pairwise (fun a b => a.1 < b.1))
    (hr : r.Pairwise (fun a b => a.1 < b.1)) (h : ∀ e, e ∈ l ↔ e ∈ r) : l = r := by
  induction l generalizing r with
  | nil =>
    cases r with
    | nil => rfl
    | cons b s => exact absurd ((h b).2 List.mem_cons_self) List.not_mem_nil
  | cons a t ih =>
    cases r with
    | nil => exact absurd ((h a).1 List.mem_cons_self) List.not_mem_nil
    | cons b s =>
      obtain ⟨ha, ht⟩ := List.pairwise_cons.1 hl
      obtain ⟨hb, hs⟩ := List.pairwise_cons.1 hr
      have hab : a = b := by
        rcases List.mem_cons.1 ((h a).1 List.mem_cons_self) with hab | has
        · exact hab
        · rcases List.mem_cons.1 ((h b).2 List.mem_cons_self) with hba | hbt
          · exact hba.symm
          · exact absurd (ha b hbt) (String.lt_asymm (hb a has))
      subst hab
      congr 1
      refine ih ht hs (fun e => ⟨fun he => ?_, fun he => ?_⟩)
      · rcases List.mem_cons.1 ((h e).1 (List.mem_cons_of_mem _ he)) with hea | hes
        · exact absurd (hea ▸ ha e he) (String.lt_irrefl _)
        · exact hes
      · rcases List.mem_cons.1 ((h e).2 (List.mem_cons_of_mem _ he)) with hea | het
        · exact absurd (hea ▸ hb e he) (String.lt_irrefl _)
        · exact het

theorem ext_get? {m n : NameMap α} (h : ∀ name, m.get? name = n.get? name) : m = n := by
  have : m.entries = n.entries :=
    eq_of_ascending m.ascending n.ascending fun e => by
      have hm : m.get? e.1 = some e.2 ↔ e ∈ m.entries := get?_eq_some_iff
      have hn : n.get? e.1 = some e.2 ↔ e ∈ n.entries := get?_eq_some_iff
      rw [← hm, h, hn]
  cases m; cases n; cases this; rfl

end NameMap

end MetricReporting
