import Mathlib.Data.List.Forall2
import MetricReporting.Proofs.Reports

namespace MetricReporting

namespace Sender

inductive Exchange
  | useTags (tags : Tags) (answer : Except Fault Unit)
  | flush (answer : Except Fault Unit)
  | append (point : Point) (answer : Except Fault Unit)
  | hasData (answer : Except Fault Bool)
  | write (answer : Except Fault Unit)

structure Logs {σ ε : Type} [Sender σ] (log : σ → List ε) (entry : Exchange → ε) : Prop where
  useTags (tags : Tags) (s : σ) :
    log (Sender.useTags tags s).state = log s ++ [entry (.useTags tags (Sender.useTags tags s).result)]
  flush (s : σ) : log (Sender.flush s).state = log s ++ [entry (.flush (Sender.flush s).result)]
  append (p : Point) (s : σ) :
    log (Sender.append p s).state = log s ++ [entry (.append p (Sender.append p s).result)]
  hasData (s : σ) : log (Sender.hasData s).state = log s ++ [entry (.hasData (Sender.hasData s).result)]
  write (s : σ) : log (Sender.write s).state = log s ++ [entry (.write (Sender.write s).result)]

def Exchange.upTo (points : List Point) : List Exchange := .flush (.ok ()) :: points.map (.append · (.ok ()))

/-- The calls made in one report and its outcome, given how its cycle was built. -/
inductive Protocol (built : Except Fault Cycle) : Outcome → List Exchange → Prop
  | unflushed {fault : Fault} : Protocol built .discarded [.flush (.error fault)]
  | unbuilt {fault : Fault} (failed : built = .error fault) : Protocol built .discarded [.flush (.ok ())]
  | unappended {c : Cycle} {before after : List Point} {point : Point} {fault : Fault} (done : built = .ok c)
      (reached : c.points = before ++ point :: after) :
      Protocol built .discarded (Exchange.upTo before ++ [.append point (.error fault)])
  | unasked {c : Cycle} {fault : Fault} (done : built = .ok c) :
      Protocol built .discarded (Exchange.upTo c.points ++ [.hasData (.error fault)])
  | nothing {c : Cycle} (done : built = .ok c) :
      Protocol built (.nothingToWrite c.skipped) (Exchange.upTo c.points ++ [.hasData (.ok false)])
  | unwritten {c : Cycle} {fault : Fault} (done : built = .ok c) :
      Protocol built .discarded (Exchange.upTo c.points ++ [.hasData (.ok true), .write (.error fault)])
  | written {c : Cycle} (done : built = .ok c) :
      Protocol built (.written c.points.length c.skipped)
        (Exchange.upTo c.points ++ [.hasData (.ok true), .write (.ok ())])

namespace Protocol

variable {built : Except Fault Cycle} {outcome : Outcome} {segment : List Exchange}

theorem untagged (h : Protocol built outcome segment) (tags : Tags) (answer : Except Fault Unit) :
    .useTags tags answer ∉ segment := by
  cases h <;> simp [Exchange.upTo]

theorem written_iff (h : Protocol built outcome segment) :
    (∃ points skipped, outcome = .written points skipped) ↔ segment.getLast? = some (.write (.ok ())) := by
  cases h <;> simp

theorem nothing_iff (h : Protocol built outcome segment) :
    (∃ skipped, outcome = .nothingToWrite skipped) ↔ segment.getLast? = some (.hasData (.ok false)) := by
  cases h <;> simp

theorem discarded_iff (h : Protocol built outcome segment) :
    outcome = .discarded ↔
      segment.getLast? ≠ some (.write (.ok ())) ∧ segment.getLast? ≠ some (.hasData (.ok false)) := by
  cases h <;> simp

end Protocol

end Sender

namespace Reporter

open Sender (Exchange Protocol)

variable {σ ε : Type} [Sender σ] {log : σ → List ε} {entry : Exchange → ε}

section Logs

variable (logs : Sender.Logs log entry)

include logs

theorem log_appends (points : List Point) (s : σ) :
    let step := (forM points Sender.append : Action σ Unit) s
    (step.result = .ok () ∧ log step.state = log s ++ (points.map (Exchange.append · (.ok ()))).map entry) ∨
      ∃ before point after fault, points = before ++ point :: after ∧ step.result = .error fault ∧
        log step.state =
          log s ++ (before.map (Exchange.append · (.ok ())) ++ [Exchange.append point (.error fault)]).map entry := by
  let P (before : List Point) (s' : σ) : Prop :=
    log s' = log s ++ (before.map (Exchange.append · (.ok ()))).map entry
  have hstep (before : List Point) (p : Point) (s' : σ) (hbefore : P before s')
      (hp : (Sender.append p s').result = .ok ()) : P (before ++ [p]) (Sender.append p s').state := by
    refine (logs.append p s').trans ?_
    rw [hbefore, hp, List.append_assoc, List.map_append, List.map_append]
    rfl
  rcases Action.forM_cases (P := P) Sender.append hstep points (List.append_nil _).symm with
    hall | ⟨before, point, after, s', fault, hpoints, hbefore, hends, herror⟩
  · exact .inl hall
  · refine .inr ⟨before, point, after, fault, hpoints, herror, ?_⟩
    rw [← hends.2, logs.append, hends.1, hbefore, List.append_assoc, List.map_append]
    rfl

variable {st : Station σ}

theorem log_of_flushed {answer : Except Fault Unit} (h : st.flushed.result = answer) :
    log st.flushed.state = log st.reporter.sender ++ [entry (.flush answer)] := by
  subst h
  exact logs.flush st.reporter.sender

theorem log_of_appended {points : List Point} (hflushed : st.flushed.result = .ok ())
    (happended : (st.appended points).result = .ok ()) :
    log (st.appended points).state = log st.reporter.sender ++ (Exchange.upTo points).map entry := by
  rcases log_appends logs points st.flushed.state with ⟨-, hlog⟩ | ⟨_, _, _, fault, -, herror, -⟩
  · rw [log_of_flushed logs hflushed, List.append_assoc] at hlog
    exact hlog
  · cases happended.symm.trans herror

theorem log_of_unappended {points : List Point} {fault : Fault} (hflushed : st.flushed.result = .ok ())
    (hfailed : (st.appended points).result = .error fault) :
    ∃ before point after, points = before ++ point :: after ∧
      log (st.appended points).state =
        log st.reporter.sender ++ (Exchange.upTo before ++ [Exchange.append point (.error fault)]).map entry := by
  rcases log_appends logs points st.flushed.state with ⟨hok, -⟩ | ⟨before, point, after, _, hpoints, herror, hlog⟩
  · cases hok.symm.trans hfailed
  · cases hfailed.symm.trans herror
    rw [log_of_flushed logs hflushed, List.append_assoc] at hlog
    exact ⟨before, point, after, hpoints, hlog⟩

theorem log_of_asked {points : List Point} {answer : Except Fault Bool} (hflushed : st.flushed.result = .ok ())
    (happended : (st.appended points).result = .ok ()) (hasked : (st.asked points).result = answer) :
    log (st.asked points).state =
      log st.reporter.sender ++ (Exchange.upTo points ++ [Exchange.hasData answer]).map entry := by
  subst hasked
  have hlog : log (st.asked points).state = _ := logs.hasData (st.appended points).state
  rw [hlog, log_of_appended logs hflushed happended, List.map_append, List.append_assoc]
  rfl

theorem log_of_written {points : List Point} {answer : Except Fault Unit} (hflushed : st.flushed.result = .ok ())
    (happended : (st.appended points).result = .ok ()) (hasked : (st.asked points).result = .ok true)
    (hwritten : (st.written points).result = answer) :
    log (st.written points).state =
      log st.reporter.sender ++ (Exchange.upTo points ++ [Exchange.hasData (.ok true), .write answer]).map entry := by
  subst hwritten
  have hlog : log (st.written points).state = _ := logs.write (st.asked points).state
  rw [hlog, log_of_asked logs hflushed happended hasked, List.append_assoc]
  simp only [List.map_append, List.append_assoc]
  rfl

theorem exists_protocol (st : Station σ) (snapshot : Snapshot) (now : Instant) :
    ∃ outcome segment, (report snapshot now st).result = .ok outcome ∧
      Protocol (st.built snapshot now).result outcome segment ∧
      log (report snapshot now st).state.reporter.sender = log st.reporter.sender ++ segment.map entry := by
  obtain ⟨outcome, st', ⟨hresult, rfl⟩, hending⟩ := exists_ending st snapshot now
  generalize (report snapshot now st).state = st' at hending ⊢
  refine ⟨outcome, ?_⟩
  cases hending with
  | unflushed hfailed => exact ⟨_, hresult, .unflushed, log_of_flushed logs hfailed⟩
  | unbuilt hflushed hfailed => exact ⟨_, hresult, .unbuilt hfailed, log_of_flushed logs hflushed⟩
  | unappended hflushed hbuilt hfailed =>
    obtain ⟨before, point, after, hreached, hlog⟩ := log_of_unappended logs hflushed hfailed
    exact ⟨_, hresult, .unappended hbuilt hreached, hlog⟩
  | unasked hflushed hbuilt happended hfailed =>
    exact ⟨_, hresult, .unasked hbuilt, log_of_asked logs hflushed happended hfailed⟩
  | unwritten hflushed hbuilt happended hasked hfailed =>
    exact ⟨_, hresult, .unwritten hbuilt, log_of_written logs hflushed happended hasked hfailed⟩
  | nothing hflushed hbuilt happended hasked =>
    exact ⟨_, hresult, .nothing hbuilt, log_of_asked logs hflushed happended hasked⟩
  | written hflushed hbuilt happended hasked hwritten =>
    exact ⟨_, hresult, .written hbuilt, log_of_written logs hflushed happended hasked hwritten⟩

end Logs

structure Call.IsSegment (call : Call σ) (segment : List Exchange) : Prop where
  follows : ∃ outcome, call.step.result = .ok outcome ∧
    Protocol (call.before.built call.snapshot call.now).result outcome segment
  untagged (tags : Tags) (answer : Except Fault Unit) : .useTags tags answer ∉ segment
  discarded_iff : call.step.result = .ok .discarded ↔
    segment.getLast? ≠ some (.write (.ok ())) ∧ segment.getLast? ≠ some (.hasData (.ok false))
  nothing_iff : (∃ skipped, call.step.result = .ok (.nothingToWrite skipped)) ↔
    segment.getLast? = some (.hasData (.ok false))
  written_iff : (∃ points skipped, call.step.result = .ok (.written points skipped)) ↔
    segment.getLast? = some (.write (.ok ()))

theorem Call.IsSegment.of_protocol {call : Call σ} {outcome : Outcome} {segment : List Exchange}
    (hresult : call.step.result = .ok outcome)
    (h : Protocol (call.before.built call.snapshot call.now).result outcome segment) : call.IsSegment segment := by
  refine ⟨⟨outcome, hresult, h⟩, h.untagged, ?_, ?_, ?_⟩ <;> simp only [hresult, Except.ok.injEq]
  · exact h.discarded_iff
  · exact h.nothing_iff
  · exact h.written_iff

theorem exists_segments (logs : Sender.Logs log entry) (st : Station σ) (turns : List (Turn σ))
    (leaves : ∀ turn ∈ turns, turn.Leaves log) :
    ∃ segments : List (List Exchange),
      log (st.through turns).reporter.sender = log st.reporter.sender ++ segments.flatten.map entry ∧
        List.Forall₂ Call.IsSegment (calls st turns) segments := by
  refine through_induction (P := fun st' made => ∃ segments : List (List Exchange),
    log st'.reporter.sender = log st.reporter.sender ++ segments.flatten.map entry ∧
      List.Forall₂ Call.IsSegment made segments) st turns ⟨[], (List.append_nil _).symm, .nil⟩ ?_ ?_
  · rintro call made ⟨segments, hlog, hsegments⟩
    obtain ⟨outcome, segment, hresult, hprotocol, hreport⟩ :=
      exists_protocol logs call.before call.snapshot call.now
    refine ⟨segments ++ [segment], ?_, ?_⟩
    · refine hreport.trans ?_
      rw [hlog, List.append_assoc, List.flatten_concat, List.map_append]
    · exact List.rel_append hsegments (.cons (.of_protocol hresult hprotocol) .nil)
  · rintro st' made sender instruments hmem ⟨segments, hlog, hsegments⟩
    exact ⟨segments, (leaves _ hmem st'.reporter.sender).trans hlog, hsegments⟩

end Reporter

end MetricReporting
