import MetricReporting.Proofs.Outlets
import MetricReporting.Sender.Memory
import MetricReporting.Sender.Recording

namespace MetricReporting

namespace Sender

/-- What can be seen of a sender: the points it holds, those it has delivered, and whether it is honest about having
any to deliver. -/
structure View (σ : Type) where
  pending : σ → List Point
  delivered : σ → List Point
  Honest : σ → Prop

variable {σ : Type}

structure View.Quiet (v : View σ) (s s' : σ) : Prop where
  delivered : v.delivered s' = v.delivered s
  honest : v.Honest s → v.Honest s'

structure View.Tracks [Sender σ] (v : View σ) : Prop where
  flush : Action.Keeps v.Quiet (Sender.flush : Action σ Unit)
  flushed (s : σ) : (Sender.flush s).result = .ok () → v.pending (Sender.flush s).state = []
  append (p : Point) : Action.Keeps v.Quiet (Sender.append p : Action σ Unit)
  appended (p : Point) (s : σ) : (Sender.append p s).result = .ok () →
    v.pending (Sender.append p s).state = v.pending s ++ [p]
  hasData : Action.Keeps v.Quiet (Sender.hasData : Action σ Bool)
  asked (s : σ) : v.pending (Sender.hasData s).state = v.pending s
  answered (s : σ) : v.Honest s → (Sender.hasData s).result = .ok !(v.pending s).isEmpty
  write_error (s : σ) (fault : Fault) : (Sender.write s).result = .error fault → v.Quiet s (Sender.write s).state
  written (s : σ) : (Sender.write s).result = .ok () →
    v.delivered (Sender.write s).state = v.delivered s ++ v.pending s ∧ (v.Honest s → v.Honest (Sender.write s).state)

namespace Memory

def view : View Memory where
  pending := Memory.pending
  delivered s := s.batches.flatten
  Honest _ := True

theorem view_tracks : view.Tracks where
  flush _ := ⟨rfl, id⟩
  flushed _ _ := rfl
  append _ _ := ⟨rfl, id⟩
  appended _ _ _ := rfl
  hasData _ := ⟨rfl, id⟩
  asked _ := rfl
  answered _ _ := rfl
  write_error _ _ h := by cases h
  written s _ := ⟨by simp [view, Sender.write, Action.modify], id⟩

end Memory

namespace Recording

def view : View Recording where
  pending := Recording.pending
  delivered := Recording.written
  Honest s := s.dataAnswer = none

def called (s : Recording) (call : Call) : Recording := { s with calls := s.calls ++ [call] }

theorem call_cases (call : Call) (told : Recording → Bool) (text : String) (work : Recording → Recording)
    (s : Recording) :
    ((do record call; failIf told text; Action.modify work : Action Recording Unit) s).Ends
        (.error (.failure (.worded .sender text))) (s.called call) ∨
      ((do record call; failIf told text; Action.modify work : Action Recording Unit) s).Ends
        (.ok ()) (work (s.called call)) := by
  have hrecord : (record call s).Ends (.ok ()) (s.called call) := ⟨rfl, rfl⟩
  cases htold : told (s.called call) with
  | true =>
    have hfail :
        (failIf told text (s.called call)).Ends (.error (.failure (.worded .sender text))) (s.called call) := by
      refine .bind_ok ⟨rfl, rfl⟩ ?_
      rw [if_pos htold]
      exact ⟨rfl, rfl⟩
    exact .inl (.bind_ok hrecord (.bind_error hfail))
  | false =>
    have hpass : (failIf told text (s.called call)).Ends (.ok ()) (s.called call) := by
      refine .bind_ok ⟨rfl, rfl⟩ ?_
      rw [if_neg (by rw [htold]; decide)]
      exact ⟨rfl, rfl⟩
    exact .inr (.bind_ok hrecord (.bind_ok hpass ⟨rfl, rfl⟩))

theorem flush_cases (s : Recording) :
    (Sender.flush s).Ends (.error (.failure (.worded .sender "injected flush failure"))) (s.called .flush) ∨
      (Sender.flush s).Ends (.ok ()) { s.called .flush with pending := [] } :=
  call_cases .flush _ _ _ s

theorem append_cases (p : Point) (s : Recording) :
    (Sender.append p s).Ends (.error (.failure (.worded .sender "injected append failure"))) (s.called (.append p)) ∨
      (Sender.append p s).Ends (.ok ()) { s.called (.append p) with pending := s.pending ++ [p] } :=
  call_cases (.append p) _ _ _ s

theorem write_cases (s : Recording) :
    (Sender.write s).Ends (.error (.failure (.worded .sender "injected write failure"))) (s.called .write) ∨
      (Sender.write s).Ends (.ok ()) { s.called .write with written := s.written ++ s.pending, pending := [] } :=
  call_cases .write _ _ _ s

theorem view_tracks : view.Tracks where
  flush s := by
    rcases flush_cases s with h | h <;> rw [h.2] <;> exact ⟨rfl, id⟩
  flushed s hok := by
    rcases flush_cases s with h | h
    · cases hok.symm.trans h.1
    · rw [h.2]
      rfl
  append p s := by
    rcases append_cases p s with h | h <;> rw [h.2] <;> exact ⟨rfl, id⟩
  appended p s hok := by
    rcases append_cases p s with h | h
    · cases hok.symm.trans h.1
    · rw [h.2]
      rfl
  hasData _ := ⟨rfl, id⟩
  asked _ := rfl
  answered s honest := by
    have hnone : s.dataAnswer = none := honest
    have hanswer : (Sender.hasData s).result = .ok (s.dataAnswer.getD !s.pending.isEmpty) := rfl
    rw [hanswer, hnone]
    rfl
  write_error s fault herror := by
    rcases write_cases s with h | h
    · rw [h.2]
      exact ⟨rfl, id⟩
    · cases herror.symm.trans h.1
  written s hok := by
    rcases write_cases s with h | h
    · cases hok.symm.trans h.1
    · rw [h.2]
      exact ⟨rfl, id⟩

end Recording

end Sender

namespace Sender.View

variable {σ : Type} {v : View σ}

def outlet (v : View σ) : Outlet σ (List Point) where
  pending := v.pending
  output := v.delivered
  put delivered batch := delivered ++ batch
  Sound := v.Honest

theorem Quiet.outlet {s s' : σ} (h : v.Quiet s s') : v.outlet.Quiet s s' := fun honest => ⟨h.honest honest, h.delivered⟩

theorem Tracks.works [Sender σ] (tracks : v.Tracks) : v.outlet.Works where
  flush s := (tracks.flush s).outlet
  flushed := tracks.flushed
  append p s := (tracks.append p s).outlet
  appended := tracks.appended
  hasData s := (tracks.hasData s).outlet
  asked := tracks.asked
  answered := tracks.answered
  write_error s fault h := (tracks.write_error s fault h).outlet
  written s h honest := ⟨(tracks.written s h).2 honest, (tracks.written s h).1⟩

end Sender.View

namespace Reporter

variable {σ : Type} [Sender σ] {v : Sender.View σ} (tracks : v.Tracks)

include tracks

theorem report_delivers (st : Station σ) (honest : v.Honest st.reporter.sender) (snapshot : Snapshot)
    (now : Instant) :
    ∃ sender store, v.Honest sender ∧ st.instruments.store.SameCounts store ∧
      ((report snapshot now st).Ends (.ok .discarded) (st.left sender store) ∧
          v.delivered sender = v.delivered st.reporter.sender ∨
        ∃ c outcome, (st.built snapshot now).result = .ok c ∧ outcome ≠ .discarded ∧
          (report snapshot now st).Ends (.ok outcome) ((st.left sender store).goneOver c.previous) ∧
          v.delivered sender = v.delivered st.reporter.sender ++ c.points) := by
  have works := tracks.works
  have hcounts : st.instruments.store.SameCounts (st.built snapshot now).state :=
    Action.Keeps.foldlM _ (Cycle.keeps_visit st.reporter.settings now) _ _
  obtain ⟨outcome, st', hends, hending⟩ := exists_ending st snapshot now
  cases hending with
  | unflushed =>
    obtain ⟨hhonest, hdelivered⟩ := works.flush _ honest
    exact ⟨_, _, hhonest, .refl _, .inl ⟨hends, hdelivered⟩⟩
  | unbuilt =>
    obtain ⟨hhonest, hdelivered⟩ := works.flush _ honest
    exact ⟨_, _, hhonest, hcounts, .inl ⟨hends, hdelivered⟩⟩
  | unappended =>
    obtain ⟨hhonest, hdelivered⟩ := quiet_of_appended works st _ honest
    exact ⟨_, _, hhonest, hcounts, .inl ⟨hends, hdelivered⟩⟩
  | unasked =>
    obtain ⟨hhonest, hdelivered⟩ := quiet_of_asked works st _ honest
    exact ⟨_, _, hhonest, hcounts, .inl ⟨hends, hdelivered⟩⟩
  | unwritten _ _ _ _ hfailed =>
    obtain ⟨hhonest, hdelivered⟩ :=
      IsTrans.trans _ _ _ (quiet_of_asked works st _) (works.write_error _ _ hfailed) honest
    exact ⟨_, _, hhonest, hcounts, .inl ⟨hends, hdelivered⟩⟩
  | @nothing c hflushed hbuilt happended hasked =>
    -- There is nothing to write, and that is all that the cycle has to deliver.
    obtain ⟨hhonest, hdelivered⟩ := quiet_of_asked works st c.points honest
    have hempty : c.points = [] := points_of_unanswered works hflushed happended honest rfl hasked
    have hall : v.delivered (st.asked c.points).state = v.delivered st.reporter.sender ++ c.points := by
      rw [hempty, List.append_nil, ← hempty]
      exact hdelivered
    exact ⟨_, _, hhonest, hcounts, .inr ⟨c, .nothingToWrite c.skipped, hbuilt, nofun, hends, hall⟩⟩
  | @written c hflushed hbuilt happended hasked hwritten =>
    obtain ⟨hhonest, hdelivered⟩ := output_of_written works hflushed happended honest hwritten
    exact ⟨_, _, hhonest, hcounts, .inr ⟨c, .written c.points.length c.skipped, hbuilt, nofun, hends, hdelivered⟩⟩

end Reporter

end MetricReporting
