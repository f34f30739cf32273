import MetricReporting.Proofs.Encounters

namespace MetricReporting

def Event.isWarning (e : Event) : Bool := decide (e.level = .warn)

def Fault.text : Fault → String
  | failure cause => cause.message
  | panic payload => "internal error: metric read panicked: " ++ payload.message

theorem Fault.message_caught (fault : Fault) : fault.caught.message = fault.text := by
  cases fault with
  | failure cause => rfl
  | panic payload =>
    rw [caught, Failure.message, Failure.detail]
    rfl

namespace Step

variable {σ α β : Type}

def warnings (step : Step σ α) : List Event := step.events.filter Event.isWarning

theorem warnings_eq_nil {step : Step σ α} (h : step.LogsOnly fun e => e.isWarning = false) : step.warnings = [] := by
  apply List.filter_eq_nil_iff.mpr
  intro e he
  rw [h e he]
  exact Bool.false_ne_true

theorem warnings_bind_of_ok {first : Action σ α} {s : σ} {a : α} (h : (first s).result = .ok a)
    (next : α → Action σ β) :
    ((first >>= next) s).warnings = (first s).warnings ++ (next a (first s).state).warnings := by
  rw [warnings, Action.bind_of_ok h]
  exact List.filter_append _ _

theorem warnings_bind_of_error {first : Action σ α} {s : σ} {fault : Fault} (h : (first s).result = .error fault)
    (next : α → Action σ β) : ((first >>= next) s).warnings = (first s).warnings := by
  rw [warnings, Action.bind_of_error h]
  rfl

theorem warnings_bind_of_silent {first : Action σ α} {next : α → Action σ β} {s : σ}
    (h : ∀ a s', (next a s').warnings = []) : ((first >>= next) s).warnings = (first s).warnings := by
  cases hfirst : (first s).result with
  | error fault => exact warnings_bind_of_error hfirst next
  | ok a => rw [warnings_bind_of_ok hfirst, h, List.append_nil]

end Step

theorem Scene.isWarning_of_warning?_eq_some {settings : CycleSettings} {x : Scene} {e : Event}
    (h : x.warning? settings = some e) : e.isWarning = true := by
  simp only [warning?, Option.bind_eq_bind, Option.bind_eq_some_iff] at h
  obtain ⟨stored, -, count, -, h⟩ := h
  split at h
  · cases h
    rfl
  · cases h

theorem Cycle.warnings_build (snapshot : Snapshot) (settings : CycleSettings) (previous : IdleTable) (now : Instant)
    (s : Store) :
    (build snapshot settings previous now s).warnings =
      (scenesFrom settings now { previous } s snapshot.entries).filterMap (Scene.warning? settings) := by
  rw [Step.warnings, build, events_visits]
  apply List.filter_eq_self.mpr
  intro e he
  obtain ⟨x, -, hx⟩ := List.mem_filterMap.mp he
  exact Scene.isWarning_of_warning?_eq_some hx

namespace Reporter

variable {σ : Type} [Sender σ]

namespace Call

def encounters (call : Call σ) : List Scene :=
  match call.before.flushed.result with
  | .ok _ =>
    Cycle.scenesFrom call.before.reporter.settings call.now { previous := call.before.reporter.previous }
      call.before.instruments.store call.snapshot.entries
  | .error _ => []

def regressions (call : Call σ) : List Event :=
  call.encounters.filterMap (Scene.warning? call.before.reporter.settings)

def delivery (call : Call σ) : List Event :=
  match call.before.flushed.result, (call.before.built call.snapshot call.now).result with
  | .ok _, .ok cycle => (deliver cycle call.before.flushed.state).warnings
  | _, _ => []

inductive Discards (call : Call σ) : List Event → Prop
  | kept (kept : call.step.result ≠ .ok .discarded) : Discards call []
  | discarded {fault : Fault} (discarded : call.step.result = .ok .discarded)
      (failed : call.before.Fails call.snapshot call.now fault) : Discards call [.dataDiscarded fault.caught]

variable (call : Call σ)

theorem warnings_cycle :
    (cycle call.snapshot call.now call.before).warnings =
      call.before.flushed.warnings ++ (call.regressions ++ call.delivery) := by
  cases hflushed : call.before.flushed.result with
  | error fault =>
    have hfirst : (Station.withSender Sender.flush call.before).result = .error fault := hflushed
    rw [cycle, Step.warnings_bind_of_error hfirst]
    simp only [regressions, encounters, delivery, hflushed, List.filterMap_nil, List.append_nil]
    rfl
  | ok _ =>
    have hfirst : (Station.withSender Sender.flush call.before).result = .ok () := hflushed
    have hregressions : call.regressions = (call.before.built call.snapshot call.now).warnings := by
      rw [Station.built, Cycle.warnings_build, regressions, encounters, hflushed]
    let st : Station σ := (Station.withSender Sender.flush call.before).state
    have hget : (Action.get st).result = .ok st := rfl
    rw [cycle, Step.warnings_bind_of_ok hfirst, Step.warnings_bind_of_ok hget, hregressions]
    apply congrArg
    cases hbuilt : (call.before.built call.snapshot call.now).result with
    | error fault =>
      have hbuild : (Station.withStore (Cycle.build call.snapshot st.reporter.settings st.reporter.previous call.now)
        st).result = .error fault := hbuilt
      simp only [delivery, hflushed, hbuilt, List.append_nil]
      exact Step.warnings_bind_of_error hbuild _
    | ok c =>
      have hbuild : (Station.withStore (Cycle.build call.snapshot st.reporter.settings st.reporter.previous call.now)
        st).result = .ok c := hbuilt
      simp only [delivery, hflushed, hbuilt]
      refine (Step.warnings_bind_of_ok hbuild _).trans ?_
      apply congrArg
      exact Step.warnings_bind_of_silent fun _ _ => rfl

theorem exists_discarding :
    ∃ discarding, call.Discards discarding ∧
      call.step.warnings = (cycle call.snapshot call.now call.before).warnings ++ discarding := by
  rcases cycle_cases call.before call.snapshot call.now with
    ⟨fault, sender, store, hfails, hcycle⟩ | ⟨c, outcome, sender, store, -, hne, hcycle⟩
  · have hattempt : (Action.attempt (cycle call.snapshot call.now) call.before).result = .ok (.error fault) :=
      congrArg Except.ok hcycle.1
    refine ⟨_, .discarded (report_of_cycle_error hcycle).1 hfails, ?_⟩
    exact Step.warnings_bind_of_ok hattempt _
  · have hattempt : (Action.attempt (cycle call.snapshot call.now) call.before).result = .ok (.ok outcome) :=
      congrArg Except.ok hcycle.1
    have hkept : call.step.result ≠ .ok .discarded := by
      intro hdiscarded
      exact hne (Except.ok.inj ((report_of_cycle_ok hcycle).1.symm.trans hdiscarded))
    refine ⟨_, .kept hkept, ?_⟩
    exact Step.warnings_bind_of_ok hattempt _

theorem warnings_step :
    ∃ discarding, call.Discards discarding ∧
      call.step.warnings = call.before.flushed.warnings ++ (call.regressions ++ call.delivery) ++ discarding := by
  obtain ⟨discarding, hdiscards, hwarnings⟩ := call.exists_discarding
  rw [warnings_cycle] at hwarnings
  exact ⟨discarding, hdiscards, hwarnings⟩

theorem delivery_eq_nil (h : Sender.LogsOnly σ fun e => e.isWarning = false) : call.delivery = [] := by
  unfold delivery
  split
  · exact Step.warnings_eq_nil (deliver_logsOnly h _ _)
  · rfl

theorem risesTo_after : call.before.reporter.previous.RisesTo call.after.reporter.previous := by
  rw [call.previous_after]
  exact IdleTable.risesTo_skipAll _ _ _

variable {call}

theorem exists_toured (hsettled : Cycle.Settled call.before.reporter.settings call.before.reporter.previous)
    (hflushed : call.before.flushed.result = .ok ()) {cycle : Cycle}
    (hbuilt : (call.before.built call.snapshot call.now).result = .ok cycle) :
    Cycle.Toured call.before.reporter.settings call.now { previous := call.before.reporter.previous } call.encounters
      cycle := by
  rw [encounters, hflushed]
  exact Cycle.toured_of_visits call.snapshot.entries hsettled hbuilt

theorem risesTo_encounter {x : Scene} (hx : x ∈ call.encounters) :
    call.before.reporter.previous.RisesTo x.table := by
  unfold encounters at hx
  split at hx
  · exact Cycle.risesTo_of_mem_scenesFrom _ _ _ x hx
  · cases hx

theorem mem_warnings_of_encounter {x : Scene} {e : Event} (hx : x ∈ call.encounters)
    (h : x.warning? call.before.reporter.settings = some e) : e ∈ call.step.warnings := by
  obtain ⟨discarding, -, hwarnings⟩ := call.warnings_step
  have hmem : e ∈ call.regressions := List.mem_filterMap.mpr ⟨x, hx, h⟩
  rw [hwarnings]
  exact List.mem_append_left _ (List.mem_append_right _ (List.mem_append_left _ hmem))

structure Warns (call : Call σ) : Prop where
  unflushed {fault : Fault} : call.before.flushed.result = .error fault → call.encounters = []
  reaches : call.before.flushed.result = .ok () →
    Cycle.Reaches call.before.reporter.settings call.snapshot.entries call.encounters
      (call.before.built call.snapshot call.now).result
  ordered : (call.encounters.map (·.entry)).Pairwise Snapshot.Precedes
  warnings : ∃ discarding, call.Discards discarding ∧
    call.step.warnings = call.before.flushed.warnings ++ (call.regressions ++ call.delivery) ++ discarding ∧
    (Sender.LogsOnly σ (fun e => e.isWarning = false) → call.step.warnings = call.regressions ++ discarding)
  told {cycle : Cycle} : call.before.flushed.result = .ok () →
    (call.before.built call.snapshot call.now).result = .ok cycle →
    ∃ told, told.Sublist call.encounters ∧
      (∀ x ∈ told, x.warning? call.before.reporter.settings = none) ∧
      List.Forall₂ (fun x p => Scene.Tells call.before.reporter.settings call.now x p) told cycle.points
  leaves : call.step.result ≠ .ok .discarded →
    ∀ x ∈ call.encounters, x.table.RisesTo call.after.reporter.previous
  rises : call.before.reporter.previous.RisesTo call.after.reporter.previous

theorem warns (hsettled : Cycle.Settled call.before.reporter.settings call.before.reporter.previous) : call.Warns := by
  have hreaches : call.before.flushed.result = .ok () →
      Cycle.Reaches call.before.reporter.settings call.snapshot.entries call.encounters
        (call.before.built call.snapshot call.now).result := by
    intro hflushed
    rw [encounters, hflushed]
    exact Cycle.reaches_scenesFrom _ _ _
  have hunflushed {fault : Fault} (h : call.before.flushed.result = .error fault) : call.encounters = [] := by
    rw [encounters, h]
  obtain ⟨discarding, hdiscards, hwarnings⟩ := call.warnings_step
  constructor
  · exact hunflushed
  · exact hreaches
  · cases hflushed : call.before.flushed.result with
    | error fault =>
      rw [hunflushed hflushed]
      exact .nil
    | ok _ =>
      obtain ⟨after, hafter⟩ := (hreaches hflushed).exists_append
      have hall := call.snapshot.pairwise_precedes
      rw [← hafter] at hall
      exact (List.pairwise_append.mp hall).1
  · refine ⟨discarding, hdiscards, hwarnings, ?_⟩
    intro hquiet
    have hflush : call.before.flushed.warnings = [] := Step.warnings_eq_nil (hquiet.flush _)
    rw [hwarnings, call.delivery_eq_nil hquiet, hflush, List.append_nil, List.nil_append]
  · intro cycle hflushed hbuilt
    obtain ⟨told, points, hsublist, hunwarned, hpoints, htells⟩ := (exists_toured hsettled hflushed hbuilt).told
    rw [List.nil_append] at hpoints
    exact ⟨told, hsublist, hunwarned, hpoints ▸ htells⟩
  · intro hkept
    obtain ⟨cycle, hbuilt, hprevious⟩ := call.isTransaction.goneOver hkept
    rw [hprevious]
    cases hflushed : call.before.flushed.result with
    | error fault => exact absurd (call.isTransaction.discarded_iff.mpr ⟨fault, .flush hflushed⟩) hkept
    | ok _ => exact (exists_toured hsettled hflushed hbuilt).leaves
  · exact call.risesTo_after

end Call

theorem settled_through {st : Station σ} (h : Cycle.Settled st.reporter.settings st.reporter.previous)
    (turns : List (Turn σ)) :
    ∀ call ∈ calls st turns, Cycle.Settled call.before.reporter.settings call.before.reporter.previous := by
  let I (st' : Station σ) : Prop := Cycle.Settled st'.reporter.settings st'.reporter.previous
  refine (through_invariant (I := I) st turns h ?_ (fun _ _ _ _ h => h)).2
  intro call hbefore
  have hsettings : call.after.reporter.settings.skipIdle = call.before.reporter.settings.skipIdle :=
    congrArg CycleSettings.skipIdle call.isTransaction.settings
  cases hskip : call.before.reporter.settings.skipIdle with
  | true => exact .inl (hsettings.trans hskip)
  | false =>
    rcases hbefore with hon | hempty
    · cases hskip.symm.trans hon
    · right
      rw [call.previous_after, hskip, (IdleTable.skipAll_false _ _).2, hempty]

theorem risesTo_through (st : Station σ) (turns : List (Turn σ)) :
    (calls st turns).Pairwise fun earlier later =>
      earlier.after.reporter.previous.RisesTo later.before.reporter.previous := by
  let P (st' : Station σ) (made : List (Call σ)) : Prop :=
    (∀ call ∈ made, call.after.reporter.previous.RisesTo st'.reporter.previous) ∧
      made.Pairwise fun earlier later => earlier.after.reporter.previous.RisesTo later.before.reporter.previous
  have hrun : P (st.through turns) (calls st turns) := by
    refine through_induction (P := P) st turns ⟨List.forall_mem_nil _, .nil⟩ ?_ (fun _ _ _ _ _ h => h)
    rintro call made ⟨hmade, hpairs⟩
    constructor
    · intro call' hcall'
      rcases List.mem_append.mp hcall' with hcall' | hcall'
      · exact (hmade call' hcall').trans call.risesTo_after
      · rw [List.mem_singleton.mp hcall']
        exact .refl _
    · apply List.pairwise_append.mpr
      refine ⟨hpairs, List.pairwise_singleton _ _, ?_⟩
      intro call' hcall' later hlater
      rw [List.mem_singleton.mp hlater]
      exact hmade call' hcall'
  exact hrun.2

/-- In every run of a reporter that begins with an empty table, each call warns of every admitted meter or timer that it
comes to and that has counted less than the table has for it by then, in the order of the cycle, and at the end of its
data being discarded if they are. A metric so warned of gets no point and leaves its entry as high as it was, so it is
warned of again whenever a later cycle comes to it, admits it and finds its count still below the entry. -/
theorem warnings_tell_regressions_and_loss (st : Station σ) (hempty : st.reporter.previous = {})
    (turns : List (Turn σ)) :
    (∀ call ∈ calls st turns, call.Warns) ∧
    (∀ fault : Fault, (Event.dataDiscarded fault.caught).fields = [("error", fault.text)]) ∧
    (calls st turns).Pairwise fun earlier later =>
      ∀ x ∈ later.encounters, x.isAdmitted later.before.reporter.settings = true → x.isMetered = true →
        ∀ entry count, earlier.after.reporter.previous.get? x.name = some entry →
          x.read? = some count → count < entry →
          ∃ stored, entry ≤ stored ∧ .wentBackwards x.name stored count ∈ later.step.warnings := by
  refine ⟨?_, ?_, ?_⟩
  · intro call hcall
    exact Call.warns (settled_through (.inr hempty) turns call hcall)
  · intro fault
    rw [← fault.message_caught]
    rfl
  · apply (risesTo_through st turns).imp
    intro earlier later hrises x hx hadmitted hmetered entry count hentry hcount hlt
    obtain ⟨stored, hstored, hle⟩ := (hrises.trans (Call.risesTo_encounter hx)) x.name entry hentry
    have hwarning := Scene.warning?_of_lt hadmitted hmetered hstored hcount (Int64.lt_of_lt_of_le hlt hle)
    exact ⟨stored, hle, Call.mem_warnings_of_encounter hx hwarning⟩

theorem warnings_tell_regressions_and_loss_after_setbacks :
    let instruments : Instruments := { store := { counters := #[⟨3⟩], meters := #[Meter.startedAt 0] } }
    let mark (n : Int64) (i : Instruments) : Instruments :=
      { i with store := i.store.update (⟨0⟩ : Handle .meter) fun m : Meter Float => m.mark 0 n }
    let snapshot := (Snapshot.insert {} "jobs" ⟨.counter, ⟨0⟩⟩).insert "load" ⟨.meter, ⟨0⟩⟩
    let now := Instant.ofEpochNanos 0
    let st : Station Sender.Recording := { reporter := { sender := {}, settings := { skipIdle := true } }, instruments }
    let turns : List (Turn Sender.Recording) :=
      [.meanwhile id (mark 7), .report snapshot now, .meanwhile (fun s => { s with writeFails := true }) (mark (-3)),
        .report snapshot now, .meanwhile (fun s => { s with writeFails := false }) (mark 1), .report snapshot now]
    let told : Event → Option (String × Int64 × Int64)
      | .wentBackwards name stored count => some (name, stored, count)
      | _ => none
    (∀ call ∈ calls st turns, call.Warns) ∧
      (calls st turns).map (fun call => call.step.warnings.map told) =
        [[], [some ("load", 7, 4), none], [some ("load", 7, 5)]] := by
  intro instruments mark snapshot now st turns told
  exact ⟨(warnings_tell_regressions_and_loss st rfl turns).1, by decide +kernel⟩

end Reporter

end MetricReporting