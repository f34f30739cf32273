import MetricReporting.Proofs.Poisoning
import MetricReporting.Report.Schedule
import MetricReporting.Sender.Memory
import MetricReporting.Sender.Recording

namespace MetricReporting

variable {σ : Type} [Sender σ]

namespace Schedule

def IsSteady (s : Schedule σ) : Prop := s.crashed = true → s.station.IsPoisoned

theorem report_ends {s : Schedule σ} {result : Except Fault Outcome} {st : Station σ}
    (h : (Reporter.reportInstruments (.ofEpochNanos s.now) s.station).Ends result st) :
    (report s).Ends result { s with station := st } :=
  .bind_ok ⟨rfl, rfl⟩ (.on h)

theorem tick_of_crashed {s : Schedule σ} (h : s.crashed = true) (instant : Nat) : (tick instant s).Ends (.ok ()) s := by
  refine .bind_ok ⟨rfl, rfl⟩ ?_
  rw [if_pos h]
  exact ⟨rfl, rfl⟩

theorem tick_ends {s : Schedule σ} (steady : s.IsSteady) (instant : Nat) :
    ∃ s', (tick instant s).Ends (.ok ()) s' ∧ s'.IsSteady ∧
      s'.station = s.station.after [.report (.ofEpochNanos instant)] := by
  have hrun : s.station.after [.report (.ofEpochNanos instant)] =
      (Reporter.reportInstruments (.ofEpochNanos instant) s.station).state := rfl
  rw [hrun]
  by_cases hpoisoned : s.station.IsPoisoned
  · -- A report on a poisoned registry leaves the station as it is, so it makes no difference whether it is tried.
    have hreport := Reporter.reportInstruments_of_poisoned s.station (.ofEpochNanos instant) hpoisoned
    rw [hreport.2]
    by_cases hcrashed : s.crashed = true
    · exact ⟨s, tick_of_crashed hcrashed instant, steady, rfl⟩
    · have hattempt : (Action.attempt report { s with now := instant }).Ends
          (.ok (.error (.panic Registry.poison))) { s with now := instant } := by
        obtain ⟨hresult, hstate⟩ := report_ends (s := { s with now := instant }) hreport
        exact ⟨congrArg Except.ok hresult, hstate⟩
      refine ⟨{ s with now := instant, crashed := true }, ?_, fun _ => hpoisoned, rfl⟩
      refine .bind_ok ⟨rfl, rfl⟩ ?_
      rw [if_neg hcrashed]
      exact .bind_ok ⟨rfl, rfl⟩ (.bind_ok hattempt ⟨rfl, rfl⟩)
  · obtain ⟨outcome, st, hreport, hregistry⟩ :=
      Reporter.reportInstruments_returns hpoisoned (.ofEpochNanos instant)
    rw [hreport.2]
    have hticking : ¬ s.crashed = true := fun hcrashed => hpoisoned (steady hcrashed)
    have hattempt : (Action.attempt report { s with now := instant }).Ends (.ok (.ok outcome))
        { s with now := instant, station := st } := by
      obtain ⟨hresult, hstate⟩ := report_ends (s := { s with now := instant }) hreport
      exact ⟨congrArg Except.ok hresult, hstate⟩
    refine ⟨{ s with now := instant, station := st }, ?_, ?_, rfl⟩
    · refine .bind_ok ⟨rfl, rfl⟩ ?_
      rw [if_neg hticking]
      exact .bind_ok ⟨rfl, rfl⟩ (.bind_ok hattempt ⟨rfl, rfl⟩)
    · intro hcrashed
      exact absurd hcrashed hticking

theorem ticks_end {s : Schedule σ} (steady : s.IsSteady) (instants : List Nat) :
    ∃ s', ((forM instants tick : Action (Schedule σ) Unit) s).Ends (.ok ()) s' ∧ s'.IsSteady ∧
      s'.station = s.station.after (instants.map fun instant => .report (.ofEpochNanos instant)) := by
  induction instants generalizing s with
  | nil => exact ⟨s, ⟨rfl, rfl⟩, steady, rfl⟩
  | cons instant rest ih =>
    obtain ⟨s', htick, steady', hstation'⟩ := tick_ends steady instant
    obtain ⟨s'', hrest, steady'', hstation''⟩ := ih steady'
    refine ⟨s'', ?_, steady'', ?_⟩
    · rw [List.forM_cons]
      exact .bind_ok htick hrest
    · rw [hstation'', hstation']
      rfl

def due (s : Schedule σ) (span : Span) : List Nat :=
  match s.ticker with
  | none => []
  | some t => (t.before s.now (s.now + span.nanos)).1

theorem sleep_ends {s : Schedule σ} (steady : s.IsSteady) (span : Span) :
    ∃ s', (sleep span s).Ends (.ok ()) s' ∧ s'.IsSteady ∧
      s'.station = s.station.after ((s.due span).map fun instant => .report (.ofEpochNanos instant)) ∧
      s'.now = s.now + span.nanos ∧ s'.ticker = s.ticker.map fun t => (t.before s.now (s.now + span.nanos)).2 := by
  obtain ⟨station, now, ticker, crashed⟩ := s
  cases ticker with
  | none =>
    exact ⟨⟨station, now + span.nanos, none, crashed⟩, .bind_ok ⟨rfl, rfl⟩ ⟨rfl, rfl⟩, steady, rfl, rfl, rfl⟩
  | some t =>
    obtain ⟨s', hticks, steady', hstation⟩ := ticks_end steady (t.before now (now + span.nanos)).1
    refine ⟨{ s' with ticker := some (t.before now (now + span.nanos)).2, now := now + span.nanos }, ?_, steady',
      hstation, rfl, rfl⟩
    exact .bind_ok ⟨rfl, rfl⟩ (.bind_ok hticks (.bind_ok ⟨rfl, rfl⟩ ⟨rfl, rfl⟩))

def ended (s : Schedule σ) : Schedule σ := { s with ticker := none }

theorem stop_of_crashed {s : Schedule σ} (hcrashed : s.crashed = true) :
    (stop s).Ends (.error (.failure .scheduleFailed)) s.ended := by
  have hended : (Action.modify ended s).Ends (.ok ()) s.ended := ⟨rfl, rfl⟩
  have hget : (Action.get s.ended).Ends (.ok s.ended) s.ended := ⟨rfl, rfl⟩
  refine .bind_ok hended (.bind_ok hget ?_)
  rw [if_pos (show s.ended.crashed = true from hcrashed)]
  exact .bind_error ⟨rfl, rfl⟩

theorem stop_of_ticking {s s' : Schedule σ} {result : Except Fault Outcome} (hticking : ¬ s.crashed = true)
    (hreport : (report s.ended).Ends result s') :
    (stop s).Ends (result.map fun _ => s'.station.reporter) s' := by
  have hended : (Action.modify ended s).Ends (.ok ()) s.ended := ⟨rfl, rfl⟩
  have hget : (Action.get s.ended).Ends (.ok s.ended) s.ended := ⟨rfl, rfl⟩
  refine .bind_ok hended (.bind_ok hget ?_)
  rw [if_neg (show ¬ s.ended.crashed = true from hticking)]
  cases result with
  | error fault => exact .bind_error hreport
  | ok outcome => exact .bind_ok hreport (.bind_ok ⟨rfl, rfl⟩ ⟨rfl, rfl⟩)

theorem stop_of_poisoned {s : Schedule σ} (poisoned : s.station.IsPoisoned) :
    (stop s).result = .error (if s.crashed then .failure .scheduleFailed else .panic Registry.poison) := by
  by_cases hcrashed : s.crashed = true
  · rw [if_pos hcrashed, (stop_of_crashed hcrashed).1]
  · have hreport := Reporter.reportInstruments_of_poisoned s.station (.ofEpochNanos s.now) poisoned
    rw [if_neg hcrashed, (stop_of_ticking hcrashed (report_ends (s := s.ended) hreport)).1]
    rfl

theorem stop_returns_iff {s : Schedule σ} (steady : s.IsSteady) :
    (∃ reporter, (stop s).result = .ok reporter) ↔ ¬ s.station.IsPoisoned := by
  constructor
  · rintro ⟨reporter, hok⟩ hpoisoned
    cases hok.symm.trans (stop_of_poisoned hpoisoned)
  · intro sound
    have hticking : ¬ s.crashed = true := fun hcrashed => sound (steady hcrashed)
    obtain ⟨outcome, st, hreport, -⟩ := Reporter.reportInstruments_returns sound (.ofEpochNanos s.now)
    exact ⟨st.reporter, (stop_of_ticking hticking (report_ends (s := s.ended) hreport)).1⟩

inductive Act (σ : Type)
  | sleep (span : Span)
  | leap (span : Span)
  | report
  | client (op : Operation)
  | adjust (change : σ → σ)

namespace Act

def run (s : Schedule σ) : Act σ → Schedule σ
  | sleep span => (Schedule.sleep span s).state
  | leap span => (Schedule.leap span s).state
  | report => (Schedule.report s).state
  | client op => (Schedule.withInstruments op.perform s).state
  | adjust change => { s with station := Deed.run s.station (.adjust change) }

def deeds (s : Schedule σ) : Act σ → List (Deed σ)
  | sleep span => (s.due span).map fun instant => .report (.ofEpochNanos instant)
  | leap _ => []
  | report => [.report (.ofEpochNanos s.now)]
  | client op => [.client op]
  | adjust change => [.adjust change]

theorem run_steady (act : Act σ) {s : Schedule σ} (steady : s.IsSteady) :
    (act.run s).IsSteady ∧ (act.run s).station = s.station.after (act.deeds s) := by
  cases act with
  | sleep span =>
    obtain ⟨s', ⟨-, hstate⟩, steady', hstation, -, -⟩ := sleep_ends steady span
    rw [run, hstate]
    exact ⟨steady', hstation⟩
  | leap span => exact ⟨steady, rfl⟩
  | report =>
    have hpoisoned := (Deed.poisoned_run (.report (.ofEpochNanos s.now)) s.station).mpr
    have hreport := report_ends (s := s) (Step.Ends.self _ rfl)
    rw [run, hreport.2]
    exact ⟨fun hcrashed => hpoisoned (.inl (steady hcrashed)), rfl⟩
  | client op =>
    have hpoisoned := (Deed.poisoned_run (.client op) s.station).mpr
    exact ⟨fun hcrashed => hpoisoned (.inl (steady hcrashed)), rfl⟩
  | adjust change => exact ⟨steady, rfl⟩

end Act

def after (s : Schedule σ) (acts : List (Act σ)) : Schedule σ := acts.foldl Act.run s

def history (s : Schedule σ) : List (Act σ) → List (Deed σ)
  | [] => []
  | act :: rest => act.deeds s ++ (act.run s).history rest

theorem after_steady {s : Schedule σ} (steady : s.IsSteady) (acts : List (Act σ)) :
    (s.after acts).IsSteady ∧ (s.after acts).station = s.station.after (s.history acts) := by
  induction acts generalizing s with
  | nil => exact ⟨steady, rfl⟩
  | cons act rest ih =>
    obtain ⟨steady', hstation⟩ := act.run_steady steady
    obtain ⟨hsteady, hrest⟩ := ih steady'
    refine ⟨hsteady, ?_⟩
    rw [hstation] at hrest
    rw [history, Station.after, List.foldl_append]
    exact hrest

omit [Sender σ] in
theorem started {st : Station σ} {period : Span} {now : Nat} {runtime : Runtime} {s : Schedule σ}
    (h : (start st period now runtime ()).result = .ok s) :
    s.station = st ∧ s.crashed = runtime.isBeyondReach now period := by
  unfold start at h
  split at h
  · cases h
  · cases h
    exact ⟨rfl, rfl⟩

/-- On a registry that is sound at first, a report comes to an outcome, whatever the sender and the metrics do, unless
a filter has panicked before while a client held the registry; and then it unwinds. In a schedule there is a report for
every tick, and it gives its reporter back in the end, under the same condition. -/
theorem returns_unless_filter_panicked (st : Station σ) (sound : ¬ st.IsPoisoned) :
    (∀ (deeds : List (Deed σ)) (now : Instant),
      ((∃ outcome, (Reporter.reportInstruments now (st.after deeds)).result = .ok outcome) ↔
        ¬ st.FilterPanics deeds) ∧
      (st.FilterPanics deeds →
        (Reporter.reportInstruments now (st.after deeds)).Ends (.error (.panic Registry.poison)) (st.after deeds))) ∧
    ∀ (runtime : Runtime) (period : Span) (now : Nat) (s : Schedule σ) (acts : List (Act σ)),
      runtime.isBeyondReach now period = false → (start st period now runtime ()).result = .ok s →
      (s.after acts).station = st.after (s.history acts) ∧
      ((∃ outcome, (report (s.after acts)).result = .ok outcome) ↔ ¬ st.FilterPanics (s.history acts)) ∧
      ((∃ reporter, (stop (s.after acts)).result = .ok reporter) ↔ ¬ st.FilterPanics (s.history acts)) := by
  have hpoisoned (deeds : List (Deed σ)) : (st.after deeds).IsPoisoned ↔ st.FilterPanics deeds :=
    (st.poisoned_after deeds).trans (or_iff_right sound)
  constructor
  · intro deeds now
    refine ⟨?_, ?_⟩
    · rw [Reporter.reportInstruments_returns_iff, hpoisoned]
    · intro h
      exact Reporter.reportInstruments_of_poisoned _ now ((hpoisoned deeds).mpr h)
  · intro runtime period now s acts hreach hstart
    obtain ⟨rfl, hcrashed⟩ := started hstart
    have hsteady : s.IsSteady := by
      intro h
      rw [hcrashed, hreach] at h
      cases h
    obtain ⟨steady, hstation⟩ := after_steady hsteady acts
    have hreport : (report (s.after acts)).result =
        (Reporter.reportInstruments (.ofEpochNanos (s.after acts).now) (s.after acts).station).result :=
      (report_ends (Step.Ends.self _ rfl)).1
    refine ⟨hstation, ?_, ?_⟩
    · rw [hreport, Reporter.reportInstruments_returns_iff, hstation, hpoisoned]
    · rw [stop_returns_iff steady, hstation, hpoisoned]

theorem returns_unless_filter_panicked_in_spite_of_gauge :
    let instruments : Instruments := {
      store := { probes := #[⟨fun _ => .panic (.text "gauge read failed"), 0⟩], gauges := #[⟨⟨0⟩⟩] }
      registry := { metrics := NameMap.empty.insert "flaky" ⟨.gauge, ⟨0⟩⟩ } }
    let st : Station Sender.Recording := { reporter := { sender := { writeFails := true } }, instruments }
    (∃ outcome, (Reporter.reportInstruments (.ofEpochNanos 0) st).result = .ok outcome) ∧
      ∃ s, (start st (.ofSeconds 10) 0 .observed ()).result = .ok s ∧
        ∃ reporter, (stop (s.after [.sleep (.ofSeconds 35)])).result = .ok reporter := by
  intro instruments st
  have sound : ¬ st.IsPoisoned := Bool.false_ne_true
  obtain ⟨hreport, hschedule⟩ := returns_unless_filter_panicked st sound
  refine ⟨(hreport [] _).1.mpr id, _, rfl, ((hschedule .observed (.ofSeconds 10) 0 _ _ (by decide) rfl).2.2).mpr ?_⟩
  refine Station.not_filterPanics ?_
  intro deed hdeed
  rw [history, history, Act.deeds, List.append_nil] at hdeed
  obtain ⟨instant, -, rfl⟩ := List.mem_map.mp hdeed
  exact fun _ => id

/-- After a filter has panicked in the hands of a client, a report on its own unwinds, and so does the last one of a
schedule. -/
theorem report_unwinds_after_filter_panic :
    let instruments : Instruments := {
      store := { counters := #[⟨3⟩] }
      registry := { metrics := NameMap.empty.insert "jobs" ⟨.counter, ⟨0⟩⟩ } }
    let st : Station Sender.Memory := { reporter := { sender := {} }, instruments }
    let poisoning : Operation := .select fun _ _ _ => .error (.text "poisoned")
    (Reporter.reportInstruments (.ofEpochNanos 0) (st.after [.client poisoning])).result =
        .error (.panic Registry.poison) ∧
      ∃ s, (start st (.ofSeconds 1) 0 .observed ()).result = .ok s ∧
        (stop (s.after [.report, .client poisoning])).result = .error (.panic Registry.poison) := by
  intro instruments st poisoning
  exact ⟨rfl, _, rfl, rfl⟩

end Schedule

end MetricReporting
