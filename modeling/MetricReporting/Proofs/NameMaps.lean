import MetricReporting.NameMap

namespace MetricReporting

namespace NameMap

variable {α : Type}

theorem mem_names_iff (m : NameMap α) (name : String) : name ∈ m.names ↔ ∃ value, m.get? name = some value := by
  rw [names, List.mem_map]
  constructor
  · rintro ⟨e, he, rfl⟩
    exact ⟨e.2, get?_eq_some_iff.mpr he⟩
  · rintro ⟨value, hvalue⟩
    exact ⟨(name, value), get?_eq_some_iff.mp hvalue, rfl⟩

theorem pairwise_names (m : NameMap α) : m.names.Pairwise (· < ·) := by
  rw [names, List.pairwise_map]
  exact m.ascending

theorem nodup_names (m : NameMap α) : m.names.Nodup := by
  apply m.pairwise_names.imp
  intro a b hlt heq
  rw [heq] at hlt
  exact String.lt_irrefl _ hlt

theorem lookup_append (name : String) (l r : List (String × α)) :
    lookup name (l ++ r) = (lookup name l).or (lookup name r) := by
  induction l with
  | nil => rfl
  | cons e rest ih =>
    rw [List.cons_append, lookup, lookup, ih]
    split <;> rfl

theorem lookup_eq_none_iff {name : String} {l : List (String × α)} : lookup name l = none ↔ ∀ e ∈ l, e.1 ≠ name := by
  induction l with
  | nil => simp [lookup]
  | cons e rest ih =>
    rw [lookup, List.forall_mem_cons, ← ih]
    split <;> simp_all

theorem get?_foldl_insert_reverse (l : List (String × α)) (m : NameMap α) (name : String) :
    (l.foldl (fun m e => m.insert e.1 e.2) m).get? name = (lookup name l.reverse).or (m.get? name) := by
  induction l generalizing m with
  | nil => rfl
  | cons e rest ih =>
    have hone : (m.insert e.1 e.2).get? name = (lookup name [e]).or (m.get? name) := by
      rw [get?_insert, lookup, lookup]
      split <;> rfl
    rw [List.foldl_cons, ih, hone, List.reverse_cons, lookup_append, Option.or_assoc]

theorem get?_ofList (l : List (String × α)) (name : String) : (ofList l).get? name = lookup name l.reverse := by
  rw [ofList, get?_foldl_insert_reverse, get?_empty, Option.or_none]

theorem mem_of_get?_ofList {l : List (String × α)} {name : String} {value : α}
    (h : (ofList l).get? name = some value) : (name, value) ∈ l := by
  rw [get?_ofList] at h
  exact List.mem_reverse.mp (mem_of_lookup h)

theorem get?_ofList_of_last (before : List (String × α)) {name : String} (value : α) {after : List (String × α)}
    (h : ∀ e ∈ after, e.1 ≠ name) : (ofList (before ++ (name, value) :: after)).get? name = some value := by
  have hafter : lookup name after.reverse = none := lookup_eq_none_iff.mpr fun e he => h e (List.mem_reverse.mp he)
  rw [get?_ofList, List.reverse_append, List.reverse_cons, lookup_append, lookup_append, hafter]
  simp [lookup]

theorem get?_ofList_cons (name : String) (value : α) (rest : List (String × α)) (h : name ∉ rest.map Prod.fst) :
    (ofList ((name, value) :: rest)).get? name = some value := by
  apply get?_ofList_of_last []
  rintro e he rfl
  exact h (List.mem_map_of_mem he)

theorem get?_ofList_of_mem {l : List (String × α)} (hnames : (l.map Prod.fst).Nodup) {e : String × α} (he : e ∈ l) :
    (ofList l).get? e.1 = some e.2 := by
  obtain ⟨before, after, rfl⟩ := List.append_of_mem he
  apply get?_ofList_of_last before e.2
  rw [List.map_append, List.map_cons] at hnames
  have hnew := (List.nodup_cons.mp (List.nodup_append.mp hnames).2.1).1
  intro e' he' hname
  exact hnew (hname ▸ List.mem_map_of_mem he')

theorem ofList_of_perm {l : List (String × α)} {m : NameMap α} (h : l.Perm m.entries) : ofList l = m := by
  have hnames : (l.map Prod.fst).Nodup := (h.map Prod.fst).nodup_iff.mpr m.nodup_names
  apply ext_get?
  intro name
  apply Option.ext
  intro value
  rw [get?_eq_some_iff (m := m), ← h.mem_iff]
  constructor
  · exact mem_of_get?_ofList
  · exact fun hmem => get?_ofList_of_mem hnames hmem

theorem ofList_entries (m : NameMap α) : ofList m.entries = m := ofList_of_perm (.refl _)

theorem ofList_append (l r : List (String × α)) : ofList (l ++ r) = (ofList l).overlay (ofList r) := by
  apply ext_get?
  intro name
  rw [get?_overlay, get?_ofList, get?_ofList, get?_ofList, List.reverse_append, lookup_append]

theorem overlay_assoc (m n o : NameMap α) : (m.overlay n).overlay o = m.overlay (n.overlay o) := by
  apply ext_get?
  intro name
  simp only [get?_overlay, Option.or_assoc]

theorem empty_overlay (m : NameMap α) : empty.overlay m = m := ofList_entries m

theorem foldl_overlay (m : NameMap α) (l : List (NameMap α)) : l.foldl overlay m = m.overlay (l.foldl overlay empty) := by
  induction l generalizing m with
  | nil => rfl
  | cons n rest ih => rw [List.foldl_cons, List.foldl_cons, ih, ih (empty.overlay n), empty_overlay, overlay_assoc]

end NameMap

end MetricReporting
