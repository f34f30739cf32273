import MetricReporting.Proofs.Deliveries
import MetricReporting.Proofs.Exchanges
/-!
The log of the calls that a sender gets in a run of reports: the tags once, then a segment for each report
(`Reporter.call_log_follows_protocol`). A sender is logged by wrapping it, which changes nothing that it does.
-/
namespace MetricReporting

def Step.Erases {σ τ α : Type} (erase : σ → τ) (step : Step σ α) (erased : Step τ α) : Prop :=
  erased = { result := step.result, state := erase step.state, events := step.events }

namespace Step.Erases

variable {σ τ α β : Type} {erase : σ → τ}

theorem pure (a : α) (s : σ) : Erases erase ((Pure.pure a : Action σ α) s) ((Pure.pure a : Action τ α) (erase s)) := rfl

theorem bind {first : Action σ α} {first' : Action τ α} {next : α → Action σ β} {next' : α → Action τ β} {s : σ}
    (h : (first s).Erases erase (first' (erase s))) (hnext : ∀ a s, (next a s).Erases erase (next' a (erase s))) :
    ((first >>= next) s).Erases erase ((first' >>= next') (erase s)) := by
  have hresult : (first' (erase s)).result = (first s).result := congrArg Step.result h
  unfold Erases
  cases hfirst : (first s).result with
  | error fault =>
    rw [Action.bind_of_error hfirst, Action.bind_of_error (hresult.trans hfirst), h]
  | ok a =>
    rw [Action.bind_of_ok hfirst, Action.bind_of_ok (hresult.trans hfirst), h, hnext a (first s).state]

theorem get {next : σ → Action σ β} {next' : τ → Action τ β} {s : σ}
    (h : (next s s).Erases erase (next' (erase s) (erase s))) :
    ((Action.get >>= next) s).Erases erase ((Action.get >>= next') (erase s)) := h

theorem forM {f : α → Action σ Unit} {f' : α → Action τ Unit} (l : List α)
    (h : ∀ a s, (f a s).Erases erase (f' a (erase s))) (s : σ) :
    ((forM l f : Action σ Unit) s).Erases erase ((forM l f' : Action τ Unit) (erase s)) := by
  induction l generalizing s with
  | nil => rfl
  | cons a rest ih =>
    rw [List.forM_cons, List.forM_cons]
    exact bind (h a s) fun _ => ih

theorem attempt {action : Action σ α} {action' : Action τ α} {s : σ}
    (h : (action s).Erases erase (action' (erase s))) :
    (action.attempt s).Erases erase (action'.attempt (erase s)) := by
  unfold Erases Action.attempt
  rw [h]

theorem on {ρ ρ' : Type} {part : σ → ρ} {put : ρ → σ → σ} {part' : τ → ρ'} {put' : ρ' → τ → τ} {erasePart : ρ → ρ'}
    {action : Action ρ α} {action' : Action ρ' α} {s : σ}
    (h : (action (part s)).Erases erasePart (action' (part' (erase s))))
    (hput : ∀ r, erase (put r s) = put' (erasePart r) (erase s)) :
    (action.on part put s).Erases erase (action'.on part' put' (erase s)) := by
  unfold Erases at h ⊢
  unfold Action.on
  dsimp only
  rw [h, hput]

end Step.Erases

namespace Sender

structure Logged (σ : Type) where
  inner : σ
  log : List Exchange := []

def Logged.call {σ α : Type} (exchange : Except Fault α → Exchange) (action : Action σ α) : Action (Logged σ) α :=
  fun s =>
    let step := action s.inner
    { result := step.result
      state := { inner := step.state, log := s.log ++ [exchange step.result] }
      events := step.events }

instance {σ : Type} [Sender σ] : Sender (Logged σ) where
  useTags tags := Logged.call (.useTags tags) (Sender.useTags tags)
  flush := Logged.call .flush Sender.flush
  append p := Logged.call (.append p) (Sender.append p)
  hasData := Logged.call .hasData Sender.hasData
  write := Logged.call .write Sender.write

theorem Logged.logs {σ : Type} [Sender σ] : Logs (Logged.log (σ := σ)) id where
  useTags _ _ := rfl
  flush _ := rfl
  append _ _ := rfl
  hasData _ := rfl
  write _ := rfl

end Sender

namespace Sender

def Exchange.recorded : Exchange → Call
  | .useTags tags _ => .useTags tags
  | .flush _ => .flush
  | .append point _ => .append point
  | .hasData answer => .hasData (answer.toOption.getD false)
  | .write _ => .write

theorem Recording.logs : Logs Recording.calls Exchange.recorded where
  useTags _ _ := rfl
  flush s := by
    rcases Recording.flush_cases s with h | h <;> rw [h.2] <;> rfl
  append p s := by
    rcases Recording.append_cases p s with h | h <;> rw [h.2] <;> rfl
  hasData _ := rfl
  write s := by
    rcases Recording.write_cases s with h | h <;> rw [h.2] <;> rfl

end Sender

open Sender (Logged Exchange Recording)

namespace Station

variable {σ : Type}

def erased (st : Station (Logged σ)) : Station σ where
  reporter :=
    { sender := st.reporter.sender.inner, settings := st.reporter.settings, previous := st.reporter.previous }
  instruments := st.instruments

theorem withSender_erases {α : Type} {action : Action (Logged σ) α} {action' : Action σ α}
    (h : ∀ s, (action s).Erases Logged.inner (action' s.inner)) (st : Station (Logged σ)) :
    (withSender action st).Erases erased (withSender action' st.erased) :=
  .on (h st.reporter.sender) fun _ => rfl

theorem withStore_erases {α : Type} (action : Action Store α) (st : Station (Logged σ)) :
    (withStore action st).Erases erased (withStore action st.erased) := rfl

end Station

namespace Reporter

variable {σ : Type}

def Turn.logged : Turn σ → Turn (Logged σ)
  | .report snapshot now => .report snapshot now
  | .meanwhile sender instruments => .meanwhile (fun s => { s with inner := sender s.inner }) instruments

theorem Turn.leaves_log (turn : Turn σ) : turn.logged.Leaves Logged.log := by
  cases turn with
  | report => trivial
  | meanwhile => exact fun _ => rfl

variable [Sender σ]

theorem deliver_erases (c : Cycle) (s : Logged σ) : (deliver c s).Erases Logged.inner (deliver c s.inner) := by
  have happend (p : Point) (s : Logged σ) : (Sender.append p s).Erases Logged.inner (Sender.append p s.inner) := rfl
  have hasData (s : Logged σ) : (Sender.hasData s).Erases Logged.inner (Sender.hasData s.inner) := rfl
  have hwrite (s : Logged σ) : (Sender.write s).Erases Logged.inner (Sender.write s.inner) := rfl
  refine .bind (.forM c.points happend s) fun _ s => .bind (hasData s) fun answer s => ?_
  cases answer with
  | false => exact .pure _ s
  | true => exact .bind (hwrite s) fun _ s => .pure _ s

theorem cycle_erases (snapshot : Snapshot) (now : Instant) (st : Station (Logged σ)) :
    (cycle snapshot now st).Erases Station.erased (cycle snapshot now st.erased) := by
  have hflush (s : Logged σ) : (Sender.flush s).Erases Logged.inner (Sender.flush s.inner) := rfl
  refine .bind (Station.withSender_erases hflush st) fun _ st => .get ?_
  refine .bind (Station.withStore_erases _ st) fun c st => ?_
  refine .bind (Station.withSender_erases (deliver_erases c) st) fun outcome st => ?_
  have hgoneOver (st : Station (Logged σ)) :
      (Action.modify (fun s => { s with reporter := { s.reporter with previous := c.previous } }) st).Erases
        Station.erased
        (Action.modify (fun s => { s with reporter := { s.reporter with previous := c.previous } }) st.erased) := rfl
  have hlog (st : Station (Logged σ)) :
      (Action.log (.cycleComplete c.points.length c.skipped c.filtered) st).Erases Station.erased
        (Action.log (.cycleComplete c.points.length c.skipped c.filtered) st.erased) := rfl
  exact .bind (hgoneOver st) fun _ st => .bind (hlog st) fun _ st => .pure outcome st

theorem report_erases (snapshot : Snapshot) (now : Instant) (st : Station (Logged σ)) :
    (report snapshot now st).Erases Station.erased (report snapshot now st.erased) := by
  refine .bind (.attempt (cycle_erases snapshot now st)) fun ended st => ?_
  cases ended with
  | ok outcome => exact .pure outcome st
  | error fault =>
    have hlog (st : Station (Logged σ)) :
        (Action.log (.dataDiscarded fault.caught) st).Erases Station.erased
          (Action.log (.dataDiscarded fault.caught) st.erased) := rfl
    exact .bind (hlog st) fun _ st => .pure _ st

def Call.erased (call : Call (Logged σ)) : Call σ := ⟨call.before.erased, call.snapshot, call.now⟩

theorem Call.IsSegment.erased {call : Call (Logged σ)} {segment : List Exchange} (h : call.IsSegment segment) :
    call.erased.IsSegment segment := by
  obtain ⟨outcome, hresult, hprotocol⟩ := h.follows
  have hsame : call.erased.step.result = call.step.result :=
    congrArg Step.result (report_erases call.snapshot call.now call.before)
  exact .of_protocol (hsame.trans hresult) hprotocol

theorem calls_erased (st : Station (Logged σ)) (turns : List (Turn σ)) :
    (calls st (turns.map Turn.logged)).map Call.erased = calls st.erased turns := by
  induction turns generalizing st with
  | nil => rfl
  | cons turn rest ih =>
    cases turn with
    | report snapshot now =>
      have hstate : (report snapshot now st.erased).state = (report snapshot now st).state.erased :=
        congrArg Step.state (report_erases snapshot now st)
      rw [calls, hstate, ← ih]
      rfl
    | meanwhile sender instruments =>
      exact ih (st.meanwhile (fun s => { s with inner := sender s.inner }) instruments)

theorem log_of_plan {ε : Type} {log : σ → List ε} {entry : Exchange → ε} (logs : Sender.Logs log entry)
    {plan : ReporterPlan} {sender : σ} {reporter : Reporter σ}
    (h : (ofPlan plan sender ()).result = .ok reporter) :
    log reporter.sender = log sender ++ [entry (.useTags plan.tags (.ok ()))] := by
  cases htold : (Sender.useTags plan.tags sender).result with
  | error fault =>
    rw [ofPlan, htold] at h
    cases h
  | ok _ =>
    rw [ofPlan, htold] at h
    cases h
    rw [logs.useTags, htold]

theorem exists_logged_of_plan {plan : ReporterPlan} {sender : σ} {reporter : Reporter σ}
    (h : (ofPlan plan sender ()).result = .ok reporter) :
    ∃ logged : Reporter (Logged σ), (ofPlan plan ({ inner := sender } : Logged σ) ()).result = .ok logged ∧
      ∀ instruments, (Station.mk logged instruments).erased = ⟨reporter, instruments⟩ := by
  have hinner : (Sender.useTags plan.tags ({ inner := sender } : Logged σ)).result =
      (Sender.useTags plan.tags sender).result := rfl
  cases htold : (Sender.useTags plan.tags sender).result with
  | error fault =>
    rw [ofPlan, htold] at h
    cases h
  | ok _ =>
    rw [ofPlan, htold] at h
    cases h
    let logged : Reporter (Logged σ) :=
      { sender := (Sender.useTags plan.tags ({ inner := sender } : Logged σ)).state, settings := plan.settings }
    refine ⟨logged, ?_, fun _ => rfl⟩
    rw [ofPlan, hinner, htold]
    rfl

/-- The calls to the sender of a reporter in a run of reports, whatever the sender answers and whatever metrics and
filters do: it is told its tags once and first, and after that the calls of each report follow one another and tell
its outcome. So it is in the log kept beside any sender, and in the one that a recording sender keeps itself. -/
theorem call_log_follows_protocol :
    (∀ (σ : Type) [Sender σ] (plan : ReporterPlan) (sender : σ) (reporter : Reporter σ) (instruments : Instruments)
      (turns : List (Turn σ)), (ofPlan plan sender ()).result = .ok reporter →
      ∃ (logged : Reporter (Logged σ)) (segments : List (List Exchange)),
        (ofPlan plan ({ inner := sender } : Logged σ) ()).result = .ok logged ∧
        (Station.through ⟨logged, instruments⟩ (turns.map Turn.logged)).reporter.sender.log =
          .useTags plan.tags (.ok ()) :: segments.flatten ∧
        List.Forall₂ Call.IsSegment (calls ⟨reporter, instruments⟩ turns) segments) ∧
    (∀ (plan : ReporterPlan) (sender : Recording) (reporter : Reporter Recording) (instruments : Instruments)
      (turns : List (Turn Recording)), (ofPlan plan sender ()).result = .ok reporter →
      (∀ turn ∈ turns, turn.Leaves Recording.calls) →
      ∃ segments : List (List Exchange),
        (Station.through ⟨reporter, instruments⟩ turns).reporter.sender.calls =
          sender.calls ++ (.useTags plan.tags (.ok ()) :: segments.flatten).map Exchange.recorded ∧
        List.Forall₂ Call.IsSegment (calls ⟨reporter, instruments⟩ turns) segments) := by
  constructor
  · intro σ _ plan sender reporter instruments turns hplan
    obtain ⟨logged, hlogged, herased⟩ := exists_logged_of_plan hplan
    have leaves : ∀ turn ∈ turns.map Turn.logged, turn.Leaves Logged.log :=
      List.forall_mem_map.mpr fun turn _ => turn.leaves_log
    obtain ⟨segments, hlog, hsegments⟩ := exists_segments Logged.logs ⟨logged, instruments⟩ _ leaves
    refine ⟨logged, segments, hlogged, ?_, ?_⟩
    · rw [hlog, log_of_plan Logged.logs hlogged, List.map_id]
      rfl
    · -- The log is that of the wrapped sender's run, whose calls are those of the run without it.
      rw [← herased instruments, ← calls_erased, List.forall₂_map_left_iff]
      exact hsegments.imp fun _ _ => Call.IsSegment.erased
  · intro plan sender reporter instruments turns hplan leaves
    obtain ⟨segments, hlog, hsegments⟩ := exists_segments Recording.logs ⟨reporter, instruments⟩ turns leaves
    refine ⟨segments, ?_, hsegments⟩
    rw [hlog, log_of_plan Recording.logs hplan, List.append_assoc]
    rfl

theorem call_log_follows_protocol_of_failing_write :
    let instruments : Instruments := { store := { counters := #[⟨3⟩] } }
    let snapshot := Snapshot.insert {} "jobs" ⟨.counter, ⟨0⟩⟩
    let now := Instant.ofEpochNanos 0
    let memory : Reporter Sender.Memory := { sender := {} }
    let recording : Reporter Recording := { sender := { calls := [.useTags .empty] } }
    let turns : List (Turn Recording) :=
      [.report snapshot now, .meanwhile (fun s => { s with writeFails := true }) id, .report snapshot now]
    (∃ (logged : Reporter (Logged Sender.Memory)) (segments : List (List Exchange)),
      (Station.through ⟨logged, instruments⟩ [.report snapshot now]).reporter.sender.log =
        .useTags .empty (.ok ()) :: segments.flatten ∧
      List.Forall₂ Call.IsSegment (calls ⟨memory, instruments⟩ [.report snapshot now]) segments) ∧
    ∃ segments : List (List Exchange),
      (Station.through ⟨recording, instruments⟩ turns).reporter.sender.calls =
        (.useTags .empty (.ok ()) :: segments.flatten).map Exchange.recorded ∧ segments.length = 2 := by
  intro instruments snapshot now memory recording turns
  obtain ⟨hlogged, hrecorded⟩ := call_log_follows_protocol
  constructor
  · obtain ⟨logged, segments, -, hlog, hsegments⟩ :=
      hlogged Sender.Memory {} {} memory instruments [.report snapshot now] rfl
    exact ⟨logged, segments, hlog, hsegments⟩
  · have hleaves : ∀ turn ∈ turns, turn.Leaves Recording.calls := by
      simp only [turns, List.forall_mem_cons, Turn.Leaves]
      exact ⟨trivial, fun _ => trivial, trivial, nofun⟩
    obtain ⟨segments, hcalls, hsegments⟩ := hrecorded {} {} recording instruments turns rfl hleaves
    exact ⟨segments, hcalls, hsegments.length_eq.symm⟩

end Reporter

end MetricReporting
