import MetricReporting.Proofs.Schedules

namespace MetricReporting

theorem eq_of_ascending_of_mem_iff {l l' : List Nat} (h : l.Pairwise (· < ·)) (h' : l'.Pairwise (· < ·))
    (hmem : ∀ t, t ∈ l ↔ t ∈ l') : l = l' := by
  have hperm : l.Perm l' := by
    apply (List.perm_ext_iff_of_nodup (h.imp Nat.ne_of_lt) (h'.imp Nat.ne_of_lt)).mpr
    exact hmem
  exact hperm.eq_of_pairwise (fun _ _ _ _ hlt hgt => absurd hlt (Nat.lt_asymm hgt)) h h'

namespace Ticker

def instants (first step now deadline : Nat) : List Nat :=
  ((List.range ((deadline - first) / step + 1)).map fun k => first + k * step).filter fun t =>
    decide (now ≤ t ∧ t < deadline)

section

variable {first step : Nat} (hstep : 0 < step)

include hstep

theorem mem_instants_iff (now deadline t : Nat) :
    t ∈ instants first step now deadline ↔ now ≤ t ∧ t < deadline ∧ ∃ k, t = first + k * step := by
  rw [instants, List.mem_filter, List.mem_map, decide_eq_true_eq]
  constructor
  · rintro ⟨⟨k, -, rfl⟩, hnow, hdeadline⟩
    exact ⟨hnow, hdeadline, k, rfl⟩
  · rintro ⟨hnow, hdeadline, k, rfl⟩
    have hk : k ≤ (deadline - first) / step := (Nat.le_div_iff_mul_le hstep).mpr (by omega)
    exact ⟨⟨k, List.mem_range.mpr (Nat.lt_succ_of_le hk), rfl⟩, hnow, hdeadline⟩

theorem ascending_steps (done n : Nat) : ((List.range n).map fun k => first + (done + k) * step).Pairwise (· < ·) := by
  rw [List.pairwise_map]
  apply List.pairwise_lt_range.imp
  intro a b hlt
  exact Nat.add_lt_add_left ((Nat.mul_lt_mul_right hstep).mpr (Nat.add_lt_add_left hlt done)) first

theorem ascending_instants (now deadline : Nat) : (instants first step now deadline).Pairwise (· < ·) := by
  have hascending := @ascending_steps first step hstep 0 ((deadline - first) / step + 1)
  simp only [Nat.zero_add] at hascending
  exact hascending.filter _

theorem instants_self (now : Nat) : instants first step now now = [] := by
  apply List.eq_nil_iff_forall_not_mem.mpr
  intro t ht
  obtain ⟨hle, hlt, -⟩ := (mem_instants_iff hstep now now t).mp ht
  omega

theorem instants_append {a b c : Nat} (hab : a ≤ b) (hbc : b ≤ c) :
    instants first step a b ++ instants first step b c = instants first step a c := by
  apply eq_of_ascending_of_mem_iff _ (ascending_instants hstep a c)
  · intro t
    rw [List.mem_append, mem_instants_iff hstep, mem_instants_iff hstep, mem_instants_iff hstep]
    constructor
    · rintro (⟨hat, htb, hk⟩ | ⟨hbt, htc, hk⟩)
      · exact ⟨hat, by omega, hk⟩
      · exact ⟨by omega, htc, hk⟩
    · rintro ⟨hat, htc, hk⟩
      by_cases htb : t < b
      · exact .inl ⟨hat, htb, hk⟩
      · exact .inr ⟨by omega, htc, hk⟩
  · rw [List.pairwise_append]
    refine ⟨ascending_instants hstep a b, ascending_instants hstep b c, ?_⟩
    intro t ht t' ht'
    have hlt := ((mem_instants_iff hstep a b t).mp ht).2.1
    have hle := ((mem_instants_iff hstep b c t').mp ht').1
    omega

end

@[simp] theorem due_later (t : Ticker) (n : Nat) : (t.later n).due = t.due + n * t.period := rfl

theorem later_zero (t : Ticker) : t.later 0 = t := by simp [later]

theorem later_later (t : Ticker) (a b : Nat) : (t.later a).later b = t.later (a + b) := by
  simp [later, Nat.add_mul, Nat.add_assoc]

theorem next_due (t : Ticker) : t.next t.due = t.later 1 := by simp [next, later]

structure IsWhole (t : Ticker) : Prop where
  due : 1000000 ∣ t.due
  period : 1000000 ∣ t.period

theorem IsWhole.wakeUp {t : Ticker} (h : t.IsWhole) : t.wakeUp = t.due := by
  have hdue := h.due
  unfold Ticker.wakeUp
  omega

theorem IsWhole.later {t : Ticker} (h : t.IsWhole) (n : Nat) : (t.later n).IsWhole :=
  ⟨Nat.dvd_add h.due (Nat.dvd_mul_left_of_dvd h.period n), h.period⟩

theorem before_of_whole (t : Ticker) (whole : t.IsWhole) {now : Nat} (hnow : now ≤ t.due) (deadline : Nat) :
    ∃ n, t.before now deadline = ((List.range n).map fun k => (t.later k).due, t.later n) ∧
      (∀ k < n, (t.later k).due < deadline) ∧ deadline ≤ (t.later n).due := by
  fun_induction before t now deadline with
  -- Nothing is late, so a tick happens when it is due and the ticker is one step further after it.
  | case1 t now hwake instant instants last hrest ih =>
    have hinstant : instant = t.due := by
      rw [show instant = max now t.wakeUp from rfl, whole.wakeUp, Nat.max_eq_right hnow]
    rw [whole.wakeUp] at hwake
    rw [hinstant, next_due] at ih hrest
    obtain ⟨n, hbefore, hbelow, habove⟩ := ih (whole.later 1) (Nat.le_add_right _ _)
    simp only [later_later, Nat.add_comm 1] at hbefore hbelow habove
    rw [hrest] at hbefore
    obtain ⟨rfl, rfl⟩ := Prod.mk.inj hbefore
    refine ⟨n + 1, ?_, ?_, habove⟩
    · rw [List.range_succ_eq_map, List.map_cons, List.map_map, later_zero, hinstant]
      rfl
    · intro k hk
      cases k with
      | zero =>
        rw [later_zero]
        exact hwake
      | succ k => exact hbelow k (Nat.lt_of_succ_lt_succ hk)
  | case2 t now hwake =>
    rw [whole.wakeUp] at hwake
    refine ⟨0, ?_, nofun, ?_⟩
    · rw [later_zero]
      rfl
    · rw [later_zero]
      omega

structure IsOnTime (first step now : Nat) (t : Ticker) : Prop where
  whole : t.IsWhole
  period : t.period = step
  passed : ∃ done, t.due = first + done * step ∧ ∀ k < done, first + k * step < now
  ahead : now ≤ t.due

theorem IsOnTime.before {first step now : Nat} {t : Ticker} (h : t.IsOnTime first step now) {deadline : Nat}
    (hdeadline : now ≤ deadline) :
    (t.before now deadline).1 = instants first step now deadline ∧
      (t.before now deadline).2.IsOnTime first step deadline := by
  have hahead := h.ahead
  obtain ⟨done, hdue, hdone⟩ := h.passed
  obtain ⟨n, hbefore, hbelow, habove⟩ := before_of_whole t h.whole h.ahead deadline
  have hstep : 0 < step := h.period ▸ t.period_pos
  have hlater (k : Nat) : (t.later k).due = first + (done + k) * step := by
    rw [due_later, h.period, hdue, Nat.add_mul, Nat.add_assoc]
  simp only [hlater] at hbefore hbelow habove
  rw [hbefore]
  constructor
  · apply eq_of_ascending_of_mem_iff _ (ascending_instants hstep now deadline)
    · intro instant
      rw [mem_instants_iff hstep, List.mem_map]
      constructor
      · rintro ⟨k, hk, rfl⟩
        refine ⟨?_, hbelow k (List.mem_range.mp hk), done + k, rfl⟩
        rw [← hlater, due_later]
        omega
      · rintro ⟨hnow, hlt, k, rfl⟩
        -- A step that is not done yet is some number of steps after the ticker's own.
        have hk : done ≤ k := Nat.not_lt.mp fun hlt => by have := hdone k hlt; omega
        obtain ⟨j, rfl⟩ := Nat.exists_eq_add_of_le hk
        refine ⟨j, List.mem_range.mpr (Nat.not_le.mp fun hj => ?_), rfl⟩
        have hle : (done + n) * step ≤ (done + j) * step := Nat.mul_le_mul_right step (Nat.add_le_add_left hj done)
        omega
    · exact ascending_steps hstep done n
  · refine ⟨h.whole.later n, h.period, ⟨done + n, hlater n, ?_⟩, ?_⟩
    · intro k hk
      by_cases hkd : k < done
      · have := hdone k hkd
        omega
      · obtain ⟨j, rfl⟩ := Nat.exists_eq_add_of_le (Nat.not_lt.mp hkd)
        exact hbelow j (by omega)
    · rw [hlater]
      exact habove

theorem isOnTime_startedAt {runtime : Runtime} {begin period : Nat} (h : 0 < period) (hbegin : 1000000 ∣ begin)
    (hperiod : 1000000 ∣ period) (hspacing : runtime.spacing period = period) :
    (startedAt runtime begin period h).IsOnTime (begin + period) period begin := by
  have hwhole : 1000000 ∣ runtime.spacing period := hspacing.symm ▸ hperiod
  refine ⟨⟨Nat.dvd_add hbegin hperiod, hwhole⟩, hspacing, ⟨0, ?_, nofun⟩, Nat.le_add_right _ _⟩
  simp [startedAt]

end Ticker

namespace Schedule

variable {σ : Type}

namespace Act

def lasts : Act σ → Nat
  | sleep span | leap span => span.nanos
  | report | client _ | adjust _ => 0

def timed (first step now : Nat) : Act σ → List (Nat × Deed σ)
  | sleep span => (Ticker.instants first step now (now + span.nanos)).map fun t => (t, .report (.ofEpochNanos t))
  | leap _ => []
  | report => [(now, .report (.ofEpochNanos now))]
  | client op => [(now, .client op)]
  | adjust change => [(now, .adjust change)]

def asks (now : Nat) : Act σ → List Nat
  | report => [now]
  | sleep _ | leap _ | client _ | adjust _ => []

end Act

def course (first step : Nat) : Nat → List (Act σ) → List (Nat × Deed σ)
  | _, [] => []
  | now, act :: rest => act.timed first step now ++ course first step (now + act.lasts) rest

def asked : Nat → List (Act σ) → List Nat
  | _, [] => []
  | now, act :: rest => act.asks now ++ asked (now + act.lasts) rest

def elapsed : List (Act σ) → Nat
  | [] => 0
  | act :: rest => act.lasts + elapsed rest

def reportsAt (timed : List (Nat × Deed σ)) : List Nat :=
  timed.filterMap fun e =>
    match e.2 with
    | .report _ => some e.1
    | _ => none

section

variable {first step : Nat} (hstep : 0 < step)

include hstep

theorem reportsAt_timed (now : Nat) {act : Act σ} (hleap : ∀ span, act ≠ .leap span) :
    reportsAt (act.timed first step now) = Ticker.instants first step now (now + act.lasts) ++ act.asks now := by
  have hnone : Ticker.instants first step now (now + 0) = [] := Ticker.instants_self hstep now
  cases act with
  | sleep span =>
    rw [Act.timed, reportsAt, List.filterMap_map, Act.asks, List.append_nil]
    exact List.filterMap_some
  | leap span => exact absurd rfl (hleap span)
  | report =>
    rw [Act.lasts, hnone]
    rfl
  | client op =>
    rw [Act.lasts, hnone]
    rfl
  | adjust change =>
    rw [Act.lasts, hnone]
    rfl

theorem reportsAt_course (acts : List (Act σ)) (hleaps : ∀ act ∈ acts, ∀ span, act ≠ .leap span) (now : Nat) :
    (reportsAt (course first step now acts)).Perm
      (Ticker.instants first step now (now + elapsed acts) ++ asked now acts) := by
  induction acts generalizing now with
  | nil =>
    have hnone : Ticker.instants first step now (now + elapsed ([] : List (Act σ))) = [] :=
      Ticker.instants_self hstep now
    rw [hnone]
    exact .nil
  | cons act rest ih =>
    obtain ⟨hleap, hrest⟩ := List.forall_mem_cons.mp hleaps
    have hsplit : Ticker.instants first step now (now + act.lasts) ++
        Ticker.instants first step (now + act.lasts) (now + act.lasts + elapsed rest) = _ :=
      Ticker.instants_append hstep (Nat.le_add_right _ _) (Nat.le_add_right _ _)
    have helapsed : now + elapsed (act :: rest) = now + act.lasts + elapsed rest := by
      rw [elapsed, Nat.add_assoc]
    have hsum : reportsAt (course first step now (act :: rest)) =
        reportsAt (act.timed first step now) ++ reportsAt (course first step (now + act.lasts) rest) :=
      List.filterMap_append
    -- What the act asks for comes before the later ticks here, and after them in the sum.
    rw [hsum, reportsAt_timed hstep now hleap, helapsed, ← hsplit, asked, List.append_assoc, List.append_assoc]
    apply List.Perm.append_left
    refine ((ih hrest (now + act.lasts)).append_left (act.asks now)).trans ?_
    exact List.perm_append_comm_assoc _ _ _

theorem timed_within (now : Nat) (act : Act σ) :
    (act.timed first step now).Pairwise (fun a b => a.1 ≤ b.1) ∧
      ∀ e ∈ act.timed first step now, now ≤ e.1 ∧ e.1 ≤ now + act.lasts := by
  have hone (deed : Deed σ) {span : Nat} : [(now, deed)].Pairwise (fun a b => a.1 ≤ b.1) ∧
      ∀ e ∈ [(now, deed)], now ≤ e.1 ∧ e.1 ≤ now + span := by
    refine ⟨List.pairwise_singleton _ _, ?_⟩
    intro e he
    rw [List.mem_singleton.mp he]
    exact ⟨Nat.le_refl now, Nat.le_add_right now span⟩
  cases act with
  | sleep span =>
    constructor
    · rw [Act.timed, List.pairwise_map]
      exact (Ticker.ascending_instants hstep now (now + span.nanos)).imp Nat.le_of_lt
    · intro e he
      obtain ⟨t, ht, rfl⟩ := List.mem_map.mp he
      obtain ⟨hle, hlt, -⟩ := (Ticker.mem_instants_iff hstep _ _ t).mp ht
      exact ⟨hle, Nat.le_of_lt hlt⟩
  | leap span => exact ⟨.nil, nofun⟩
  | report => exact hone _
  | client op => exact hone _
  | adjust change => exact hone _

theorem course_ordered (acts : List (Act σ)) (now : Nat) :
    (course first step now acts).Pairwise (fun a b => a.1 ≤ b.1) ∧ ∀ e ∈ course first step now acts, now ≤ e.1 := by
  induction acts generalizing now with
  | nil => exact ⟨.nil, nofun⟩
  | cons act rest ih =>
    obtain ⟨hact, hwithin⟩ := timed_within hstep now act
    obtain ⟨hrest, hafter⟩ := ih (now + act.lasts)
    constructor
    · rw [course, List.pairwise_append]
      exact ⟨hact, hrest, fun a ha b hb => Nat.le_trans (hwithin a ha).2 (hafter b hb)⟩
    · intro e he
      rcases List.mem_append.mp he with he | he
      · exact (hwithin e he).1
      · exact Nat.le_trans (Nat.le_add_right now act.lasts) (hafter e he)

end

variable [Sender σ] {first step : Nat}

omit [Sender σ] in
theorem start_of_pos (st : Station σ) (now : Nat) (runtime : Runtime) {period : Span} (h : 0 < period.nanos) :
    (start st period now runtime ()).result = .ok {
      station := st, now, ticker := some (.startedAt runtime now period.nanos h)
      crashed := runtime.isBeyondReach now period } := by
  rw [start, dif_neg (Nat.ne_of_gt h)]
  rfl

def OnTime (first step : Nat) (s : Schedule σ) : Prop := ∃ t, s.ticker = some t ∧ t.IsOnTime first step s.now

theorem Act.run_onTime {s : Schedule σ} (steady : s.IsSteady) (h : s.OnTime first step) (act : Act σ)
    (hleap : ∀ span, act ≠ .leap span) :
    act.deeds s = (act.timed first step s.now).map Prod.snd ∧ (act.run s).now = s.now + act.lasts ∧
      (act.run s).OnTime first step := by
  obtain ⟨t, hticker, htime⟩ := h
  have hkept {s' : Schedule σ} (hnow : s'.now = s.now) (hsame : s'.ticker = s.ticker) :
      s'.now = s.now + 0 ∧ s'.OnTime first step := by
    refine ⟨hnow, t, hsame.trans hticker, ?_⟩
    rw [hnow]
    exact htime
  cases act with
  | sleep span =>
    obtain ⟨s', ⟨-, hstate⟩, -, -, hnow, hnext⟩ := sleep_ends steady span
    obtain ⟨hinstants, hlast⟩ := htime.before (Nat.le_add_right s.now span.nanos)
    rw [hticker] at hnext
    rw [run, hstate]
    have hdue : s.due span = Ticker.instants first step s.now (s.now + span.nanos) := by
      rw [due, hticker]
      exact hinstants
    refine ⟨?_, hnow, _, hnext, ?_⟩
    · rw [deeds, hdue, timed, List.map_map]
      rfl
    · rw [hnow]
      exact hlast
  | leap span => exact absurd rfl (hleap span)
  | report =>
    have hstate := (report_ends (s := s) (Step.Ends.self _ rfl)).2
    refine ⟨rfl, hkept ?_ ?_⟩
    · rw [run, hstate]
    · rw [run, hstate]
  | client op => exact ⟨rfl, hkept rfl rfl⟩
  | adjust change => exact ⟨rfl, hkept rfl rfl⟩

theorem history_eq_course (acts : List (Act σ)) (hleaps : ∀ act ∈ acts, ∀ span, act ≠ .leap span) {s : Schedule σ}
    (steady : s.IsSteady) (h : s.OnTime first step) :
    s.history acts = (course first step s.now acts).map Prod.snd ∧ (s.after acts).now = s.now + elapsed acts := by
  induction acts generalizing s with
  | nil => exact ⟨rfl, rfl⟩
  | cons act rest ih =>
    obtain ⟨hleap, hrest⟩ := List.forall_mem_cons.mp hleaps
    obtain ⟨hdeeds, hnow, honTime⟩ := act.run_onTime steady h hleap
    obtain ⟨hhistory, hlast⟩ := ih hrest (act.run_steady steady).1 honTime
    rw [hnow] at hhistory hlast
    constructor
    · rw [history, course, List.map_append, hdeeds, hhistory]
    · rw [elapsed, ← Nat.add_assoc]
      exact hlast

theorem station_after_sleeps (spans : List Span) {s : Schedule σ} (ended : s.ticker = none) :
    (s.after (spans.map .sleep)).station = s.station := by
  induction spans generalizing s with
  | nil => rfl
  | cons span rest ih =>
    obtain ⟨station, now, ticker, crashed⟩ := s
    cases ended
    exact ih rfl

theorem ticks_of_crashed {s : Schedule σ} (h : s.crashed = true) (instants : List Nat) :
    ((forM instants tick : Action (Schedule σ) Unit) s).Ends (.ok ()) s := by
  induction instants with
  | nil => exact ⟨rfl, rfl⟩
  | cons instant rest ih =>
    rw [List.forM_cons]
    exact .bind_ok (tick_of_crashed h instant) ih

theorem Act.crashed_run (act : Act σ) {s : Schedule σ} (h : s.crashed = true) : (act.run s).crashed = true := by
  cases act with
  | sleep span =>
    obtain ⟨station, now, ticker, crashed⟩ := s
    cases ticker with
    | none => exact h
    | some t =>
      have hticks := ticks_of_crashed h (t.before now (now + span.nanos)).1
      have hsleep : (Schedule.sleep span ⟨station, now, some t, crashed⟩).Ends (.ok ())
          ⟨station, now + span.nanos, some (t.before now (now + span.nanos)).2, crashed⟩ :=
        .bind_ok ⟨rfl, rfl⟩ (.bind_ok hticks (.bind_ok ⟨rfl, rfl⟩ ⟨rfl, rfl⟩))
      rw [run, hsleep.2]
      exact h
  | leap span => exact h
  | report =>
    rw [run, (report_ends (s := s) (Step.Ends.self _ rfl)).2]
    exact h
  | client op => exact h
  | adjust change => exact h

theorem crashed_after (acts : List (Act σ)) {s : Schedule σ} (h : s.crashed = true) :
    (s.after acts).crashed = true := by
  induction acts generalizing s with
  | nil => exact h
  | cons act rest ih => exact ih (act.crashed_run h)

/-- The schedule does at each instant what the reporter would do if it were called directly: at the ticks and when it
is asked, in the order of time, and once more in the end. From then on it does nothing. -/
structure Punctual (st : Station σ) (first step begin : Nat) (s : Schedule σ) (acts : List (Act σ)) : Prop where
  ordered : (course first step begin acts).Pairwise fun a b => a.1 ≤ b.1
  reports : (reportsAt (course first step begin acts)).Perm
    (Ticker.instants first step begin (begin + elapsed acts) ++ asked begin acts)
  station : (s.after acts).station = st.after ((course first step begin acts).map Prod.snd)
  stops : ∃ s', (stop (s.after acts)).Ends (.ok s'.station.reporter) s' ∧
    s'.station = st.after ((course first step begin acts).map Prod.snd ++
      [.report (.ofEpochNanos (begin + elapsed acts))]) ∧
    ∀ spans : List Span, (s'.after (spans.map .sleep)).station = s'.station

theorem punctual_of_onTime {s : Schedule σ} (hstep : 0 < step) (steady : s.IsSteady) (h : s.OnTime first step)
    (acts : List (Act σ)) (hleaps : ∀ act ∈ acts, ∀ span, act ≠ .leap span)
    (sound : ¬ (s.station.after ((course first step s.now acts).map Prod.snd)).IsPoisoned) :
    Punctual s.station first step s.now s acts := by
  obtain ⟨hhistory, hnow⟩ := history_eq_course acts hleaps steady h
  obtain ⟨hsteady, hstation⟩ := after_steady steady acts
  rw [hhistory] at hstation
  rw [← hstation] at sound
  have hticking : ¬ (s.after acts).crashed = true := fun hcrashed => sound (hsteady hcrashed)
  obtain ⟨outcome, st', hreport, -⟩ := Reporter.reportInstruments_returns sound (.ofEpochNanos (s.after acts).now)
  have hstop := stop_of_ticking hticking (report_ends (s := (s.after acts).ended) hreport)
  refine ⟨(course_ordered hstep acts s.now).1, reportsAt_course hstep acts hleaps s.now, hstation, _, hstop, ?_, ?_⟩
  · have happend (deeds more : List (Deed σ)) : s.station.after (deeds ++ more) = (s.station.after deeds).after more :=
      List.foldl_append
    rw [happend, ← hstation, ← hnow]
    exact hreport.2.symm
  · intro spans
    exact station_after_sleeps spans rfl

/-- With a period that the clock can reach, and timers that keep to it, a schedule is its reporter called at the right
instants. With one that the clock cannot reach the ticking crashes at once, and in the end there is neither a last
report nor the reporter. -/
theorem reports_at_ticks_calls_and_end (runtime : Runtime) (st : Station σ) (begin : Nat) (hbegin : 1000000 ∣ begin) :
    (∀ period : Span, period.nanos = 0 →
      start st period begin runtime = fun _ => ⟨.error (.failure .zeroReportPeriod), (), []⟩) ∧
    ∀ period : Span, 0 < period.nanos → 1000000 ∣ period.nanos →
      ∃ s, (start st period begin runtime ()).result = .ok s ∧
        (runtime.isBeyondReach begin period = true →
          ∀ acts, (stop (s.after acts)).result = .error (.failure .scheduleFailed)) ∧
        (runtime.isBeyondReach begin period = false → runtime.spacing period.nanos = period.nanos →
          ∀ acts, (∀ act ∈ acts, ∀ span, act ≠ .leap span) →
            let first := begin + period.nanos
            ¬ (st.after ((course first period.nanos begin acts).map Prod.snd)).IsPoisoned →
              Punctual st first period.nanos begin s acts) := by
  constructor
  · intro period hzero
    rw [start, dif_pos hzero]
    rfl
  · intro period hpos hwhole
    let s : Schedule σ := {
      station := st, now := begin, ticker := some (.startedAt runtime begin period.nanos hpos)
      crashed := runtime.isBeyondReach begin period }
    refine ⟨s, start_of_pos st begin runtime hpos, ?_, ?_⟩
    · intro hreach acts
      exact (stop_of_crashed (crashed_after acts (s := s) hreach)).1
    · intro hreach hspacing acts hleaps first sound
      have steady : s.IsSteady := fun hcrashed => absurd (hreach.symm.trans hcrashed) Bool.false_ne_true
      have honTime : s.OnTime first period.nanos := ⟨_, rfl, Ticker.isOnTime_startedAt hpos hbegin hwhole hspacing⟩
      exact punctual_of_onTime hpos steady honTime acts hleaps sound

theorem reports_at_ticks_calls_and_end_every_ten_seconds :
    let st : Station Sender.Recording := { reporter := { sender := {} } }
    let creates : Operation := .getOrCreate .counter (fun _ => {}) "requests"
    let counts : Operation := .change (.add ⟨0⟩ 1)
    let acts : List (Act Sender.Recording) :=
      [.client creates, .sleep (.ofSeconds 15), .report, .client counts, .sleep (.ofSeconds 20)]
    let report (seconds : Nat) : Deed Sender.Recording := .report (.ofEpochNanos (seconds * 1000000000))
    ∃ s, (start st (.ofSeconds 10) 0 .observed ()).result = .ok s ∧
      ∃ s', (stop (s.after acts)).Ends (.ok s'.station.reporter) s' ∧
        s'.station = st.after
          [.client creates, report 10, report 15, .client counts, report 20, report 30, report 35] := by
  intro st creates counts acts report
  have hfirst : Ticker.instants 10000000000 10000000000 0 15000000000 = [10000000000] := by decide
  have hlater : Ticker.instants 10000000000 10000000000 15000000000 35000000000 = [20000000000, 30000000000] := by
    decide
  have hcourse : (course 10000000000 10000000000 0 acts).map Prod.snd =
      [.client creates, report 10, report 15, .client counts, report 20, report 30] := by
    simp [acts, report, course, Act.timed, Act.lasts, Span.ofSeconds, hfirst, hlater]
  have hleaps : ∀ act ∈ acts, ∀ span, act ≠ .leap span := by
    simp only [acts, List.forall_mem_cons]
    exact ⟨nofun, nofun, nofun, nofun, nofun, nofun⟩
  have sound : ¬ (st.after ((course 10000000000 10000000000 0 acts).map Prod.snd)).IsPoisoned := by
    rw [hcourse, st.poisoned_after]
    rintro (hpoisoned | hpanics)
    · exact Bool.false_ne_true hpoisoned
    · refine Station.not_filterPanics ?_ hpanics
      simp only [List.forall_mem_cons]
      exact ⟨fun _ => id, fun _ => id, fun _ => id, fun _ => id, fun _ => id, fun _ => id, nofun⟩
  obtain ⟨s, hstart, -, hpunctual⟩ :=
    (reports_at_ticks_calls_and_end .observed st 0 (by decide)).2 (.ofSeconds 10) (by decide) (by decide)
  obtain ⟨s', hstop, hstation, -⟩ := (hpunctual (by decide) (by decide) acts hleaps sound).stops
  have hlast : 0 + elapsed acts = 35000000000 := by decide
  have hdeeds : s'.station = st.after ((course 10000000000 10000000000 0 acts).map Prod.snd ++
      [.report (.ofEpochNanos (0 + elapsed acts))]) := hstation
  rw [hcourse, hlast] at hdeeds
  exact ⟨s, hstart, s', hstop, hdeeds⟩

theorem stop_fails_beyond_reach :
    let st : Station Sender.Recording := { reporter := { sender := {} } }
    let period := Span.ofSeconds (Nat.pow 2 63)
    let acts : List (Act Sender.Recording) :=
      [.client (.getOrCreate .counter (fun _ => {}) "requests"), .client (.change (.add ⟨0⟩ 1))]
    0 < period.nanos ∧ 1000000 ∣ period.nanos ∧
      ∃ s, (start st period 0 .observed ()).result = .ok s ∧ ¬ (s.after acts).station.IsPoisoned ∧
        (stop (s.after acts)).result = .error (.failure .scheduleFailed) ∧
        (stop (s.after acts)).state.station.reporter.sender = st.reporter.sender := by
  intro st period acts
  exact ⟨by decide, by decide, _, rfl, Bool.false_ne_true, rfl, rfl⟩

end Schedule

end MetricReporting
