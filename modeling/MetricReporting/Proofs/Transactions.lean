import MetricReporting.Proofs.Visits
import MetricReporting.Report.Reporter

namespace MetricReporting

variable {σ : Type} [Sender σ]

namespace Station

def flushed (st : Station σ) : Step σ Unit := Sender.flush st.reporter.sender

def visited (st : Station σ) (now : Instant) (entries : List (String × Metric)) : Step Store Cycle :=
  entries.foldlM (Cycle.visit st.reporter.settings now) { previous := st.reporter.previous } st.instruments.store

def built (st : Station σ) (snapshot : Snapshot) (now : Instant) : Step Store Cycle :=
  Cycle.build snapshot st.reporter.settings st.reporter.previous now st.instruments.store

def appended (st : Station σ) (points : List Point) : Step σ Unit :=
  (forM points Sender.append : Action σ Unit) st.flushed.state

def asked (st : Station σ) (points : List Point) : Step σ Bool := Sender.hasData (st.appended points).state

def written (st : Station σ) (points : List Point) : Step σ Unit := Sender.write (st.asked points).state

inductive Fails (st : Station σ) (snapshot : Snapshot) (now : Instant) : Fault → Prop
  | flush {fault : Fault} (failed : st.flushed.result = .error fault) : Fails st snapshot now fault
  | visit {before after : List (String × Metric)} {entry : String × Metric} {cycle : Cycle} {fault : Fault}
      (flushed : st.flushed.result = .ok ()) (reached : snapshot.entries = before ++ entry :: after)
      (visited : (st.visited now before).result = .ok cycle)
      (failed : (Cycle.visit st.reporter.settings now cycle entry (st.visited now before).state).result =
        .error fault) : Fails st snapshot now fault
  | append {before after : List Point} {point : Point} {cycle : Cycle} {fault : Fault}
      (flushed : st.flushed.result = .ok ()) (built : (st.built snapshot now).result = .ok cycle)
      (reached : cycle.points = before ++ point :: after) (appended : (st.appended before).result = .ok ())
      (failed : (Sender.append point (st.appended before).state).result = .error fault) : Fails st snapshot now fault
  | ask {cycle : Cycle} {fault : Fault}
      (flushed : st.flushed.result = .ok ()) (built : (st.built snapshot now).result = .ok cycle)
      (appended : (st.appended cycle.points).result = .ok ())
      (failed : (st.asked cycle.points).result = .error fault) : Fails st snapshot now fault
  | write {cycle : Cycle} {fault : Fault}
      (flushed : st.flushed.result = .ok ()) (built : (st.built snapshot now).result = .ok cycle)
      (appended : (st.appended cycle.points).result = .ok ())
      (asked : (st.asked cycle.points).result = .ok true)
      (failed : (st.written cycle.points).result = .error fault) : Fails st snapshot now fault

end Station

namespace Station

def left (st : Station σ) (sender : σ) (store : Store) : Station σ :=
  { reporter := { st.reporter with sender }, instruments := { st.instruments with store } }

def goneOver (st : Station σ) (previous : IdleTable) : Station σ :=
  { st with reporter := { st.reporter with previous } }

end Station

namespace Reporter

variable {st : Station σ} {snapshot : Snapshot} {now : Instant} {c : Cycle} {fault : Fault}

theorem cycle_of_flush_error (h : st.flushed.result = .error fault) :
    (cycle snapshot now st).Ends (.error fault) (st.left st.flushed.state st.instruments.store) :=
  .bind_error (.on (.self _ h))

theorem cycle_of_build_error (hflushed : st.flushed.result = .ok ())
    (h : (st.built snapshot now).result = .error fault) :
    (cycle snapshot now st).Ends (.error fault) (st.left st.flushed.state (st.built snapshot now).state) :=
  .bind_ok (.on (.self _ hflushed)) (.bind_ok ⟨rfl, rfl⟩ (.bind_error (.on (.on (.self _ h)))))

theorem cycle_of_deliver_error (hflushed : st.flushed.result = .ok ())
    (hbuilt : (st.built snapshot now).result = .ok c)
    (h : (deliver c st.flushed.state).result = .error fault) :
    (cycle snapshot now st).Ends (.error fault)
      (st.left (deliver c st.flushed.state).state (st.built snapshot now).state) :=
  .bind_ok (.on (.self _ hflushed)) (.bind_ok ⟨rfl, rfl⟩
    (.bind_ok (.on (.on (.self _ hbuilt))) (.bind_error (.on (.self _ h)))))

theorem cycle_of_delivered {outcome : Outcome} (hflushed : st.flushed.result = .ok ())
    (hbuilt : (st.built snapshot now).result = .ok c)
    (h : (deliver c st.flushed.state).result = .ok outcome) :
    (cycle snapshot now st).Ends (.ok outcome)
      ((st.left (deliver c st.flushed.state).state (st.built snapshot now).state).goneOver c.previous) :=
  .bind_ok (.on (.self _ hflushed)) (.bind_ok ⟨rfl, rfl⟩ (.bind_ok (.on (.on (.self _ hbuilt)))
    (.bind_ok (.on (.self _ h)) (.bind_ok ⟨rfl, rfl⟩ (.bind_ok ⟨rfl, rfl⟩ ⟨rfl, rfl⟩)))))

theorem deliver_of_append_error
    (h : (st.appended c.points).result = .error fault) :
    (deliver c st.flushed.state).Ends (.error fault) (st.appended c.points).state :=
  .bind_error (.self _ h)

theorem deliver_of_ask_error (happended : (st.appended c.points).result = .ok ())
    (h : (st.asked c.points).result = .error fault) :
    (deliver c st.flushed.state).Ends (.error fault) (st.asked c.points).state :=
  .bind_ok (.self _ happended) (.bind_error (.self _ h))

theorem deliver_of_no_data (happended : (st.appended c.points).result = .ok ())
    (h : (st.asked c.points).result = .ok false) :
    (deliver c st.flushed.state).Ends (.ok (.nothingToWrite c.skipped)) (st.asked c.points).state :=
  .bind_ok (.self _ happended) (.bind_ok (.self _ h) ⟨rfl, rfl⟩)

theorem deliver_of_write_error (happended : (st.appended c.points).result = .ok ())
    (hasked : (st.asked c.points).result = .ok true) (h : (st.written c.points).result = .error fault) :
    (deliver c st.flushed.state).Ends (.error fault) (st.written c.points).state :=
  .bind_ok (.self _ happended) (.bind_ok (.self _ hasked) (.bind_error (.self _ h)))

theorem deliver_of_written (happended : (st.appended c.points).result = .ok ())
    (hasked : (st.asked c.points).result = .ok true) (h : (st.written c.points).result = .ok ()) :
    (deliver c st.flushed.state).Ends (.ok (.written c.points.length c.skipped)) (st.written c.points).state :=
  .bind_ok (.self _ happended) (.bind_ok (.self _ hasked) (.bind_ok (.self _ h) ⟨rfl, rfl⟩))

theorem deliver_cases (hflushed : st.flushed.result = .ok ()) (hbuilt : (st.built snapshot now).result = .ok c) :
    (∃ fault, (deliver c st.flushed.state).result = .error fault ∧ st.Fails snapshot now fault) ∨
      ∃ outcome, (deliver c st.flushed.state).result = .ok outcome ∧ outcome ≠ .discarded := by
  cases happended : (st.appended c.points).result with
  | error fault =>
    obtain ⟨before, point, after, hreached, hbefore, hpoint⟩ :=
      (Action.result_forM_eq_error _ _ _ _).mp happended
    exact .inl ⟨fault, (deliver_of_append_error happended).1, .append hflushed hbuilt hreached hbefore hpoint⟩
  | ok _ =>
    cases hasked : (st.asked c.points).result with
    | error fault =>
      exact .inl ⟨fault, (deliver_of_ask_error happended hasked).1, .ask hflushed hbuilt happended hasked⟩
    | ok answer =>
      cases answer with
      | false => exact .inr ⟨_, (deliver_of_no_data happended hasked).1, nofun⟩
      | true =>
        cases hwritten : (st.written c.points).result with
        | error fault =>
          exact .inl ⟨fault, (deliver_of_write_error happended hasked hwritten).1,
            .write hflushed hbuilt happended hasked hwritten⟩
        | ok _ => exact .inr ⟨_, (deliver_of_written happended hasked hwritten).1, nofun⟩

theorem cycle_cases (st : Station σ) (snapshot : Snapshot) (now : Instant) :
    (∃ fault sender store, st.Fails snapshot now fault ∧
      (cycle snapshot now st).Ends (.error fault) (st.left sender store)) ∨
    ∃ c outcome sender store, (st.built snapshot now).result = .ok c ∧ outcome ≠ .discarded ∧
      (cycle snapshot now st).Ends (.ok outcome) ((st.left sender store).goneOver c.previous) := by
  cases hflushed : st.flushed.result with
  | error fault => exact .inl ⟨fault, _, _, .flush hflushed, cycle_of_flush_error hflushed⟩
  | ok _ =>
    cases hbuilt : (st.built snapshot now).result with
    | error fault =>
      obtain ⟨before, entry, after, c, hreached, hvisited, hvisit⟩ :=
        (Action.result_foldlM_eq_error _ _ _ _ _).mp hbuilt
      exact .inl ⟨fault, _, _, .visit hflushed hreached hvisited hvisit, cycle_of_build_error hflushed hbuilt⟩
    | ok c =>
      rcases deliver_cases hflushed hbuilt with ⟨fault, hdeliver, hfails⟩ | ⟨outcome, hdeliver, hne⟩
      · exact .inl ⟨fault, _, _, hfails, cycle_of_deliver_error hflushed hbuilt hdeliver⟩
      · exact .inr ⟨c, outcome, _, _, rfl, hne, cycle_of_delivered hflushed hbuilt hdeliver⟩

theorem result_cycle_of_fails (h : st.Fails snapshot now fault) : (cycle snapshot now st).result = .error fault := by
  cases h with
  | flush hflushed => exact (cycle_of_flush_error hflushed).1
  | visit hflushed hreached hvisited hvisit =>
    -- The build fails as a fold does: its visits succeed up to the one that fails.
    have hbuilt := (Action.result_foldlM_eq_error _ _ _ _ _).mpr ⟨_, _, _, _, hreached, hvisited, hvisit⟩
    exact (cycle_of_build_error hflushed hbuilt).1
  | append hflushed hbuilt hreached hbefore hpoint =>
    have happended := (Action.result_forM_eq_error _ _ _ _).mpr ⟨_, _, _, hreached, hbefore, hpoint⟩
    exact (cycle_of_deliver_error hflushed hbuilt (deliver_of_append_error happended).1).1
  | ask hflushed hbuilt happended hasked =>
    exact (cycle_of_deliver_error hflushed hbuilt (deliver_of_ask_error happended hasked).1).1
  | write hflushed hbuilt happended hasked hwritten =>
    exact (cycle_of_deliver_error hflushed hbuilt (deliver_of_write_error happended hasked hwritten).1).1

structure Call (σ : Type) where
  before : Station σ
  snapshot : Snapshot
  now : Instant

namespace Call

def step (call : Call σ) : Step (Station σ) Outcome := report call.snapshot call.now call.before

def after (call : Call σ) : Station σ := call.step.state

structure IsTransaction (call : Call σ) : Prop where
  returns : ∃ outcome, call.step.result = .ok outcome
  discarded_iff : call.step.result = .ok .discarded ↔ ∃ fault, call.before.Fails call.snapshot call.now fault
  kept : call.step.result = .ok .discarded → call.after.reporter.previous = call.before.reporter.previous
  goneOver : call.step.result ≠ .ok .discarded → ∃ cycle,
    (call.before.built call.snapshot call.now).result = .ok cycle ∧ call.after.reporter.previous = cycle.previous
  settings : call.after.reporter.settings = call.before.reporter.settings

end Call

theorem report_of_cycle_error {s : Station σ} (h : (cycle snapshot now st).Ends (.error fault) s) :
    (report snapshot now st).Ends (.ok .discarded) s := by
  obtain ⟨herror, rfl⟩ := h
  have hattempt : (Action.attempt (cycle snapshot now) st).Ends (.ok (.error fault)) (cycle snapshot now st).state :=
    ⟨congrArg Except.ok herror, rfl⟩
  exact .bind_ok hattempt (.bind_ok ⟨rfl, rfl⟩ ⟨rfl, rfl⟩)

theorem report_of_cycle_ok {outcome : Outcome} {s : Station σ} (h : (cycle snapshot now st).Ends (.ok outcome) s) :
    (report snapshot now st).Ends (.ok outcome) s := by
  obtain ⟨hok, rfl⟩ := h
  have hattempt : (Action.attempt (cycle snapshot now) st).Ends (.ok (.ok outcome)) (cycle snapshot now st).state :=
    ⟨congrArg Except.ok hok, rfl⟩
  exact .bind_ok hattempt ⟨rfl, rfl⟩

theorem Call.isTransaction (call : Call σ) : call.IsTransaction := by
  obtain ⟨st, snapshot, now⟩ := call
  rcases cycle_cases st snapshot now with
    ⟨fault, sender, store, hfails, hcycle⟩ | ⟨c, outcome, sender, store, hbuilt, hne, hcycle⟩
  · obtain ⟨hresult, hstate⟩ := report_of_cycle_error hcycle
    constructor
    · exact ⟨_, hresult⟩
    · exact ⟨fun _ => ⟨fault, hfails⟩, fun _ => hresult⟩
    · intro _
      exact congrArg (·.reporter.previous) hstate
    · intro hne
      exact absurd hresult hne
    · exact congrArg (·.reporter.settings) hstate
  · obtain ⟨hresult, hstate⟩ := report_of_cycle_ok hcycle
    have hkept : (report snapshot now st).result ≠ .ok .discarded := by
      rw [hresult]
      exact fun h => hne (Except.ok.inj h)
    constructor
    · exact ⟨_, hresult⟩
    · constructor
      · intro h
        exact absurd h hkept
      · rintro ⟨fault, hfails⟩
        cases hcycle.1.symm.trans (result_cycle_of_fails hfails)
    · intro h
      exact absurd h hkept
    · intro _
      exact ⟨c, hbuilt, congrArg (·.reporter.previous) hstate⟩
    · exact congrArg (·.reporter.settings) hstate

/-- A turn in the life of a reporter: a call, or any change of its sender and of the instruments between calls. -/
inductive Turn (σ : Type)
  | report (snapshot : Snapshot) (now : Instant)
  | meanwhile (sender : σ → σ) (instruments : Instruments → Instruments)

def calls : Station σ → List (Turn σ) → List (Call σ)
  | _, [] => []
  | st, .report snapshot now :: rest => ⟨st, snapshot, now⟩ :: calls (report snapshot now st).state rest
  | st, .meanwhile sender instruments :: rest =>
    calls
      { reporter := { st.reporter with sender := sender st.reporter.sender }
        instruments := instruments st.instruments } rest

def Handed (held : IdleTable) : List (Call σ) → Prop
  | [] => True
  | call :: rest => call.before.reporter.previous = held ∧ Handed call.after.reporter.previous rest

/-- In every run each call is a transaction on the idle table that the call before it left, and the settings are the
same from the first call to the last. -/
theorem calls_are_transactions (st : Station σ) (turns : List (Turn σ)) :
    Handed st.reporter.previous (calls st turns) ∧
      ∀ call ∈ calls st turns, call.IsTransaction ∧ call.before.reporter.settings = st.reporter.settings := by
  induction turns generalizing st with
  | nil =>
    refine ⟨trivial, ?_⟩
    intro call hcall
    cases hcall
  | cons turn rest ih =>
    cases turn with
    | report snapshot now =>
      have hcall := Call.isTransaction ⟨st, snapshot, now⟩
      obtain ⟨hhanded, hrest⟩ := ih (report snapshot now st).state
      refine ⟨⟨rfl, hhanded⟩, ?_⟩
      intro call hmem
      rcases List.mem_cons.mp hmem with rfl | hmem
      · exact ⟨hcall, rfl⟩
      · exact ⟨(hrest call hmem).1, (hrest call hmem).2.trans hcall.settings⟩
    | meanwhile sender instruments =>
      exact ih
        { reporter := { st.reporter with sender := sender st.reporter.sender }
          instruments := instruments st.instruments }

end Reporter

end MetricReporting
