import MetricReporting.Proofs.Logs
import MetricReporting.Proofs.OneName
import MetricReporting.Sender.Memory
import MetricReporting.Sender.Recording

namespace MetricReporting

namespace IdleTable

structure HighWater (t : IdleTable) (readings : List (String × Int64)) : Prop where
  read {name : String} {count : Int64} : t.get? name = some count → (name, count) ∈ readings
  le {name : String} {count : Int64} : (name, count) ∈ readings → ∃ stored, t.get? name = some stored ∧ count ≤ stored

namespace HighWater

variable {t : IdleTable} {readings : List (String × Int64)}

theorem empty : HighWater {} [] where
  read h := by cases h
  le h := by cases h

theorem self (t : IdleTable) : t.HighWater t.counts.entries where
  read h := NameMap.get?_eq_some_iff.mp h
  le h := ⟨_, NameMap.get?_eq_some_iff.mpr h, Int64.le_refl _⟩

theorem get?_eq_some_iff (h : t.HighWater readings) (name : String) (count : Int64) :
    t.get? name = some count ↔ (name, count) ∈ readings ∧ ∀ c, (name, c) ∈ readings → c ≤ count := by
  constructor
  · intro hcount
    refine ⟨h.read hcount, ?_⟩
    intro c hc
    obtain ⟨stored, hstored, hle⟩ := h.le hc
    cases hcount.symm.trans hstored
    exact hle
  · rintro ⟨hmem, hmax⟩
    obtain ⟨stored, hstored, hle⟩ := h.le hmem
    rw [hstored, Int64.le_antisymm (hmax stored (h.read hstored)) hle]

theorem get?_eq_none_iff (h : t.HighWater readings) (name : String) :
    t.get? name = none ↔ ∀ c, (name, c) ∉ readings := by
  constructor
  · intro hnone c hc
    obtain ⟨stored, hstored, -⟩ := h.le hc
    cases hnone.symm.trans hstored
  · intro hnone
    cases hstored : t.get? name with
    | none => rfl
    | some stored => exact absurd (h.read hstored) (hnone stored)

theorem read_below (h : t.HighWater readings) {name : String} {count stored : Int64}
    (hstored : t.get? name = some stored) (hle : count ≤ stored) : t.HighWater (readings ++ [(name, count)]) where
  read hmem := List.mem_append_left _ (h.read hmem)
  le hmem := by
    rcases List.mem_append.mp hmem with hmem | hmem
    · exact h.le hmem
    · cases List.mem_singleton.mp hmem
      exact ⟨stored, hstored, hle⟩

theorem raise (h : t.HighWater readings) {name : String} {count : Int64}
    (habove : ∀ stored, t.get? name = some stored → stored ≤ count) :
    HighWater ⟨t.counts.insert name count⟩ (readings ++ [(name, count)]) where
  read {other c} hmem := by
    have hget := NameMap.get?_insert t.counts name other count
    by_cases hname : name = other
    · rw [if_pos hname] at hget
      cases hget.symm.trans hmem
      exact List.mem_append_right _ (List.mem_singleton.mpr (by rw [hname]))
    · rw [if_neg hname] at hget
      exact List.mem_append_left _ (h.read (hget.symm.trans hmem))
  le {other c} hmem := by
    have hget := NameMap.get?_insert t.counts name other count
    by_cases hname : name = other
    · rw [if_pos hname] at hget
      refine ⟨count, hget, ?_⟩
      rcases List.mem_append.mp hmem with hmem | hmem
      · obtain ⟨stored, hstored, hle⟩ := h.le hmem
        exact Int64.le_trans hle (habove stored (by rw [hname]; exact hstored))
      · cases List.mem_singleton.mp hmem
        exact Int64.le_refl count
    · rw [if_neg hname] at hget
      rcases List.mem_append.mp hmem with hmem | hmem
      · obtain ⟨stored, hstored, hle⟩ := h.le hmem
        exact ⟨stored, hget.trans hstored, hle⟩
      · cases List.mem_singleton.mp hmem
        exact absurd rfl hname

theorem skip (h : t.HighWater readings) (name : String) (count : Int64) :
    (t.skip name count true).2.HighWater (readings ++ [(name, count)]) := by
  have hidle := t.isIdle_iff_le name count
  unfold IdleTable.skip
  rw [Bool.not_true, if_neg Bool.false_ne_true]
  by_cases hyes : t.isIdle name count = true
  · obtain ⟨stored, hstored, hle⟩ := hidle.mp hyes
    rw [if_pos hyes]
    exact h.read_below hstored hle
  · rw [if_neg hyes]
    refine h.raise ?_
    intro stored hstored
    have hnot : ¬ count ≤ stored := fun hle => hyes (hidle.mpr ⟨stored, hstored, hle⟩)
    exact Int64.le_of_lt (Int64.not_le.mp hnot)

theorem skipAll (h : t.HighWater readings) (more : List (String × Int64)) :
    (t.skipAll true more).2.HighWater (readings ++ more) := by
  induction more generalizing t readings with
  | nil =>
    rw [List.append_nil]
    exact h
  | cons reading rest ih =>
    rw [List.append_cons]
    exact ih (h.skip reading.1 reading.2)

end HighWater

theorem skipAll_false (t : IdleTable) (readings : List (String × Int64)) :
    (t.skipAll false readings).1.count true = 0 ∧ (t.skipAll false readings).2 = t := by
  induction readings with
  | nil => exact ⟨rfl, rfl⟩
  | cons reading rest ih =>
    have hkept : (t.skip reading.1 reading.2 false).1 ≠ true := Bool.false_ne_true
    exact ⟨(List.count_cons_of_ne hkept).trans ih.1, ih.2⟩

end IdleTable

namespace Cycle

variable {settings : CycleSettings} {now : Instant}

theorem skipped_of_built (hskip : settings.skipIdle = false) {snapshot : Snapshot} {previous : IdleTable} {s : Store}
    {cycle : Cycle} (h : (build snapshot settings previous now s).result = .ok cycle) : cycle.skipped = 0 := by
  have hskipped := (accountFrom_of_built h).2.skipped
  rw [answers, hskip, (IdleTable.skipAll_false _ _).1] at hskipped
  exact hskipped

theorem silent_suppress {c : Cycle} (hc : c.previous = {}) (name : String) (metric : Metric) (s : Store) :
    (c.suppress settings name metric s).events = [] := by
  cases hjudged : judgePanic? c.previous s name metric with
  | some payload => rw [suppress_of_panic settings hjudged]
  | none =>
    rw [suppress_of_calm hjudged, hc]
    dsimp only
    rw [warnings]
    split
    · rfl
    · rfl

theorem silent_visit {c : Cycle} {P : Event → Prop} (hc : c.previous = {}) (entry : String × Metric) (s : Store) :
    (visit settings now c entry s).LogsOnly P := by
  obtain ⟨name, metric⟩ := entry
  refine .bind (.of_silent rfl) fun s' _ => ?_
  cases settings.filter s' name metric with
  | error payload => exact .of_silent rfl
  | ok admitted =>
    cases admitted with
    | false => exact .of_silent rfl
    | true =>
      refine .bind (.of_silent (silent_suppress hc name metric _)) fun judged _ => ?_
      obtain ⟨skip, c'⟩ := judged
      cases skip with
      | true => exact .of_silent rfl
      | false => exact .bind (.of_silent (settings.units.silent_fields metric _)) fun _ _ => .of_silent rfl

theorem previous_visit (hskip : settings.skipIdle = false) {c c' : Cycle} {entry : String × Metric} {s : Store}
    (h : (visit settings now c entry s).result = .ok c') : c'.previous = c.previous := by
  obtain ⟨name, metric⟩ := entry
  have hjudge : (judge settings c.previous s name metric).2 = c.previous := by
    unfold judge
    split
    · rfl
    · rw [hskip]
      rfl
  rcases visit_cases settings now c name metric s (panic?_of_ok h) with
    ⟨-, hvisit⟩ | ⟨-, -, hvisit⟩ | ⟨-, -, fields, -, hvisit⟩ <;> rw [hvisit] at h <;> cases h
  · rfl
  · exact hjudge
  · exact hjudge

theorem silent_build {P : Event → Prop} (hskip : settings.skipIdle = false) (snapshot : Snapshot) (s : Store) :
    (build snapshot settings {} now s).LogsOnly P :=
  .foldlM (fun c => c.previous = {}) snapshot.entries
    (fun _ entry s hc => ⟨silent_visit hc entry s, fun _ h => (previous_visit hskip h).trans hc⟩) rfl s

end Cycle

def Outcome.skipped : Outcome → Nat
  | .written _ skipped => skipped
  | .nothingToWrite skipped => skipped
  | .discarded => 0

def Event.isRegression : Event → Bool
  | .wentBackwards .. => true
  | _ => false

namespace Reporter

variable {σ : Type} [Sender σ]

def Call.readings (call : Call σ) : List (String × Int64) :=
  let settings := call.before.reporter.settings
  let scenes := Cycle.scenes call.snapshot settings call.before.reporter.previous call.now call.before.instruments.store
  (Cycle.metered settings scenes).map Scene.reading

def Call.committed (call : Call σ) : List (String × Int64) :=
  match call.step.result with
  | .ok .discarded => []
  | _ => call.readings

theorem Call.committed_of_discarded {call : Call σ} (h : call.step.result = .ok .discarded) : call.committed = [] := by
  rw [committed, h]

theorem Call.committed_of_kept {call : Call σ} (h : call.step.result ≠ .ok .discarded) :
    call.committed = call.readings := by
  unfold committed
  split
  · contradiction
  · rfl

theorem Call.previous_after (call : Call σ) :
    call.after.reporter.previous =
      (call.before.reporter.previous.skipAll call.before.reporter.settings.skipIdle call.committed).2 := by
  by_cases hdiscarded : call.step.result = .ok .discarded
  · rw [call.isTransaction.kept hdiscarded, committed_of_discarded hdiscarded]
    rfl
  · obtain ⟨cycle, hbuilt, hprevious⟩ := call.isTransaction.goneOver hdiscarded
    rw [hprevious, (Cycle.accountFrom_of_built hbuilt).2.previous, committed_of_kept hdiscarded]
    rfl

theorem Call.skipped_eq_zero {call : Call σ} (hskip : call.before.reporter.settings.skipIdle = false)
    {outcome : Outcome} (h : call.step.result = .ok outcome) : outcome.skipped = 0 := by
  obtain ⟨outcome', _, hends, hending⟩ := exists_ending call.before call.snapshot call.now
  cases h.symm.trans hends.1
  cases hending with
  | unflushed => rfl
  | unbuilt => rfl
  | unappended => rfl
  | unasked => rfl
  | unwritten => rfl
  | nothing _ hbuilt => exact Cycle.skipped_of_built hskip hbuilt
  | written _ hbuilt => exact Cycle.skipped_of_built hskip hbuilt

theorem Call.isRegression_eq_false {call : Call σ} (hskip : call.before.reporter.settings.skipIdle = false)
    (hempty : call.before.reporter.previous = {}) (h : Sender.LogsOnly σ fun e => e.isRegression = false) :
    ∀ e ∈ call.step.events, e.isRegression = false := by
  refine report_logsOnly h (fun _ => rfl) (fun _ _ _ => rfl) call.before call.snapshot call.now ?_
  rw [Station.built, hempty]
  exact Cycle.silent_build hskip call.snapshot _

theorem highWater_through {st : Station σ} {readings : List (String × Int64)}
    (hskip : st.reporter.settings.skipIdle = true) (h : st.reporter.previous.HighWater readings)
    (turns : List (Turn σ)) :
    (st.through turns).reporter.previous.HighWater (readings ++ (calls st turns).flatMap Call.committed) := by
  let P (st' : Station σ) (made : List (Call σ)) : Prop :=
    st'.reporter.settings.skipIdle = true ∧
      st'.reporter.previous.HighWater (readings ++ made.flatMap Call.committed)
  have hrun : P (st.through turns) (calls st turns) := by
    refine through_induction (P := P) st turns ⟨hskip, ?_⟩ ?_ (fun _ _ _ _ _ hmade => hmade)
    · rw [List.flatMap_nil, List.append_nil]
      exact h
    · rintro call made ⟨hon, hwater⟩
      refine ⟨(congrArg CycleSettings.skipIdle call.isTransaction.settings).trans hon, ?_⟩
      rw [call.previous_after, hon, List.flatMap_append, List.flatMap_singleton, ← List.append_assoc]
      exact hwater.skipAll call.committed
  exact hrun.2

theorem previous_through {st : Station σ} (hskip : st.reporter.settings.skipIdle = false) (turns : List (Turn σ)) :
    (st.through turns).reporter.previous = st.reporter.previous ∧
      ∀ call ∈ calls st turns, call.before.reporter.settings.skipIdle = false ∧
        call.before.reporter.previous = st.reporter.previous := by
  let Idle (st' : Station σ) : Prop :=
    st'.reporter.settings.skipIdle = false ∧ st'.reporter.previous = st.reporter.previous
  have hrun : Idle (st.through turns) ∧ ∀ call ∈ calls st turns, Idle call.before := by
    refine through_invariant (I := Idle) st turns ⟨hskip, rfl⟩ ?_ (fun _ _ _ _ h => h)
    rintro call ⟨hoff, hprevious⟩
    refine ⟨(congrArg CycleSettings.skipIdle call.isTransaction.settings).trans hoff, ?_⟩
    rw [call.previous_after, hoff, (IdleTable.skipAll_false _ _).2, hprevious]
  exact ⟨hrun.1.2, hrun.2⟩

/-- After every run of a reporter that begins with an empty table. Under suppression the table has for each name the
greatest count that the cycles not discarded have read under it, so no entry is lowered or lost. Without suppression it
stays empty, nothing is left out as idle, and no count is reported to have gone backwards unless the sender does so. -/
theorem idle_table_is_high_water_mark (st : Station σ) (hempty : st.reporter.previous = {}) (turns : List (Turn σ)) :
    let table := (st.through turns).reporter.previous
    let readings := (calls st turns).flatMap Call.committed
    (st.reporter.settings.skipIdle = true →
      (∀ name count, table.get? name = some count ↔
        (name, count) ∈ readings ∧ ∀ c, (name, c) ∈ readings → c ≤ count) ∧
      (∀ name, table.get? name = none ↔ ∀ c, (name, c) ∉ readings) ∧
      ∀ more name count, table.get? name = some count →
        ∃ later, (st.through (turns ++ more)).reporter.previous.get? name = some later ∧ count ≤ later) ∧
    (st.reporter.settings.skipIdle = false →
      table = {} ∧
      ∀ call ∈ calls st turns,
        (∀ outcome, call.step.result = .ok outcome → outcome.skipped = 0) ∧
        (Sender.LogsOnly σ (fun e => e.isRegression = false) → ∀ e ∈ call.step.events, e.isRegression = false)) := by
  intro table readings
  constructor
  · intro hskip
    have hstart : st.reporter.previous.HighWater [] := hempty ▸ .empty
    have hwater : table.HighWater readings := highWater_through hskip hstart turns
    refine ⟨hwater.get?_eq_some_iff, hwater.get?_eq_none_iff, ?_⟩
    intro more name count hcount
    have hon : (st.through turns).reporter.settings.skipIdle = true :=
      (congrArg CycleSettings.skipIdle (settings_through st turns)).trans hskip
    rw [Station.through_append]
    exact (highWater_through hon hwater more).le (List.mem_append_left _ (hwater.read hcount))
  · intro hskip
    obtain ⟨hprevious, hcalls⟩ := previous_through hskip turns
    refine ⟨hprevious.trans hempty, ?_⟩
    intro call hcall
    obtain ⟨hoff, hbefore⟩ := hcalls call hcall
    exact ⟨fun _ => Call.skipped_eq_zero hoff, Call.isRegression_eq_false hoff (hbefore.trans hempty)⟩

theorem idle_table_is_high_water_mark_after_setbacks :
    let instruments : Instruments := { store := { meters := #[Meter.startedAt 0] } }
    let mark (n : Int64) (i : Instruments) : Instruments :=
      { i with store := i.store.update (⟨0⟩ : Handle .meter) fun m : Meter Float => m.mark 0 n }
    let snapshot := Snapshot.insert {} "load" ⟨.meter, ⟨0⟩⟩
    let now := Instant.ofEpochNanos 0
    let suppressing : Station Sender.Recording :=
      { reporter := { sender := {}, settings := { skipIdle := true } }, instruments }
    let setbacks : List (Turn Sender.Recording) :=
      [.meanwhile id (mark 7), .report snapshot now, .meanwhile id (mark (-3)), .report snapshot now,
        .meanwhile (fun s => { s with writeFails := true }) (mark 9), .report snapshot now]
    let plain : Station Sender.Memory := { reporter := { sender := {} }, instruments }
    let turns : List (Turn Sender.Memory) :=
      [.meanwhile id (mark 7), .report snapshot now, .meanwhile id (mark (-3)), .report snapshot now]
    (suppressing.through setbacks).reporter.previous.get? "load" = some 7 ∧
      (plain.through turns).reporter.previous = {} ∧
      ∀ call ∈ calls plain turns, ∀ e ∈ call.step.events, e.isRegression = false := by
  intro instruments mark snapshot now suppressing setbacks plain turns
  have hreadings : (calls suppressing setbacks).flatMap Call.committed = [("load", 7), ("load", 4)] := by
    decide +kernel
  have hgreatest : ∀ c, ("load", c) ∈ [("load", 7), ("load", 4)] → c ≤ (7 : Int64) := by
    intro c hc
    simp only [List.mem_cons, Prod.mk.injEq, true_and, List.not_mem_nil, or_false] at hc
    rcases hc with rfl | rfl <;> decide
  have hsuppressed := (idle_table_is_high_water_mark suppressing rfl setbacks).1 rfl
  have hplain := (idle_table_is_high_water_mark plain rfl turns).2 rfl
  have hquiet : Sender.LogsOnly Sender.Memory fun e => e.isRegression = false :=
    ⟨fun _ => .of_silent rfl, fun _ _ => .of_silent rfl, fun _ => .of_silent rfl, fun _ => .of_silent rfl⟩
  rw [hreadings] at hsuppressed
  refine ⟨(hsuppressed.1 "load" 7).mpr ⟨List.mem_cons_self, hgreatest⟩, hplain.1, ?_⟩
  intro call hcall
  exact (hplain.2 call hcall).2 hquiet

end Reporter

end MetricReporting
