import MetricReporting.Proofs.Reports

namespace MetricReporting

namespace Sender

structure Outlet (σ δ : Type) where
  pending : σ → List Point
  output : σ → δ
  put : δ → List Point → δ
  answer : Option Bool := none
  Sound : σ → Prop := fun _ => True

variable {σ δ : Type}

def Outlet.Quiet (o : Outlet σ δ) (s s' : σ) : Prop := o.Sound s → o.Sound s' ∧ o.output s' = o.output s

instance (o : Outlet σ δ) : IsPreorder σ o.Quiet where
  refl _ sound := ⟨sound, rfl⟩
  trans _ _ _ h h' sound :=
    have hthere := h sound
    have hback := h' hthere.1
    ⟨hback.1, hback.2.trans hthere.2⟩

structure Outlet.Works [Sender σ] (o : Outlet σ δ) : Prop where
  flush : Action.Keeps o.Quiet (Sender.flush : Action σ Unit)
  flushed (s : σ) : (Sender.flush s).result = .ok () → o.pending (Sender.flush s).state = []
  append (p : Point) : Action.Keeps o.Quiet (Sender.append p : Action σ Unit)
  appended (p : Point) (s : σ) : (Sender.append p s).result = .ok () →
    o.pending (Sender.append p s).state = o.pending s ++ [p]
  hasData : Action.Keeps o.Quiet (Sender.hasData : Action σ Bool)
  asked (s : σ) : o.pending (Sender.hasData s).state = o.pending s
  answered (s : σ) : o.Sound s → (Sender.hasData s).result = .ok (o.answer.getD !(o.pending s).isEmpty)
  write_error (s : σ) (fault : Fault) : (Sender.write s).result = .error fault → o.Quiet s (Sender.write s).state
  written (s : σ) : (Sender.write s).result = .ok () → o.Sound s →
    o.Sound (Sender.write s).state ∧ o.output (Sender.write s).state = o.put (o.output s) (o.pending s)

end Sender

namespace Reporter

variable {σ δ : Type} [Sender σ]

def Call.batch? (call : Call σ) : Option (List Point) :=
  match call.step.result, (call.before.built call.snapshot call.now).result with
  | .ok (.written ..), .ok c => some c.points
  | _, _ => none

def batches (made : List (Call σ)) : List (List Point) := made.filterMap Call.batch?

theorem batches_append (made more : List (Call σ)) : batches (made ++ more) = batches made ++ batches more :=
  List.filterMap_append

section Works

variable {o : Sender.Outlet σ δ} (works : o.Works)

include works

theorem quiet_of_appended (st : Station σ) (points : List Point) :
    o.Quiet st.reporter.sender (st.appended points).state :=
  IsTrans.trans _ _ _ (works.flush _) (Action.Keeps.forM points works.append _)

theorem quiet_of_asked (st : Station σ) (points : List Point) :
    o.Quiet st.reporter.sender (st.asked points).state :=
  IsTrans.trans _ _ _ (quiet_of_appended works st points) (works.hasData _)

theorem pending_appended (points : List Point) (s : σ)
    (h : ((forM points Sender.append : Action σ Unit) s).result = .ok ()) :
    o.pending ((forM points Sender.append : Action σ Unit) s).state = o.pending s ++ points := by
  let P (before : List Point) (s' : σ) : Prop := o.pending s' = o.pending s ++ before
  have hstep (before : List Point) (p : Point) (s' : σ) (hbefore : P before s')
      (hp : (Sender.append p s').result = .ok ()) : P (before ++ [p]) (Sender.append p s').state := by
    refine (works.appended p s' hp).trans ?_
    rw [hbefore, List.append_assoc]
  rcases Action.forM_cases (P := P) Sender.append hstep points (List.append_nil _).symm with
    ⟨-, hall⟩ | ⟨_, _, _, _, fault, -, -, -, herror⟩
  · exact hall
  · cases h.symm.trans herror

variable {st : Station σ} {points : List Point} (hflushed : st.flushed.result = .ok ())
  (happended : (st.appended points).result = .ok ())

include hflushed happended

theorem pending_of_appended : o.pending (st.appended points).state = points := by
  have hempty : o.pending st.flushed.state = [] := works.flushed _ hflushed
  have hpending := pending_appended works points st.flushed.state happended
  rwa [hempty, List.nil_append] at hpending

theorem answer_of_appended (sound : o.Sound st.reporter.sender) :
    (st.asked points).result = .ok (o.answer.getD !points.isEmpty) := by
  have hanswer := works.answered _ (quiet_of_appended works st points sound).1
  rwa [pending_of_appended works hflushed happended] at hanswer

theorem points_of_unanswered (sound : o.Sound st.reporter.sender) (hanswer : o.answer = none)
    (hasked : (st.asked points).result = .ok false) : points = [] := by
  have h := answer_of_appended works hflushed happended sound
  rw [hasked, hanswer] at h
  have hempty : (!points.isEmpty) = false := (Except.ok.inj h).symm
  rw [Bool.not_eq_eq_eq_not, Bool.not_false] at hempty
  exact List.isEmpty_iff.mp hempty

theorem output_of_written (sound : o.Sound st.reporter.sender) (hwritten : (st.written points).result = .ok ()) :
    o.Sound (st.written points).state ∧
      o.output (st.written points).state = o.put (o.output st.reporter.sender) points := by
  obtain ⟨hsound, houtput⟩ := quiet_of_asked works st points sound
  have hpending : o.pending (st.asked points).state = points :=
    (works.asked _).trans (pending_of_appended works hflushed happended)
  have hput := works.written _ hwritten hsound
  rwa [houtput, hpending] at hput

end Works

theorem Call.batch?_eq_none {call : Call σ} {outcome : Outcome} (h : call.step.result = .ok outcome)
    (hne : ∀ n k, outcome ≠ .written n k) : call.batch? = none := by
  rw [batch?, h]
  cases outcome with
  | written n k => exact absurd rfl (hne n k)
  | nothingToWrite k => rfl
  | discarded => rfl

theorem Call.puts {o : Sender.Outlet σ δ} (works : o.Works) (call : Call σ)
    (sound : o.Sound call.before.reporter.sender) :
    o.Sound call.after.reporter.sender ∧
      o.output call.after.reporter.sender = call.batch?.toList.foldl o.put (o.output call.before.reporter.sender) := by
  obtain ⟨outcome, st', ⟨hresult, hstate⟩, hending⟩ := exists_ending call.before call.snapshot call.now
  have hstep : call.step.result = .ok outcome := hresult
  -- All endings but the last are quiet, and none of those has a batch.
  have hquiet {sender : σ} (h : o.Quiet call.before.reporter.sender sender) (hne : ∀ n k, outcome ≠ .written n k) :
      o.Sound sender ∧
        o.output sender = call.batch?.toList.foldl o.put (o.output call.before.reporter.sender) := by
    rw [Call.batch?_eq_none hstep hne]
    exact h sound
  rw [after, step, hstate]
  cases hending with
  | unflushed => exact hquiet (works.flush _) nofun
  | unbuilt => exact hquiet (works.flush _) nofun
  | unappended => exact hquiet (quiet_of_appended works _ _) nofun
  | unasked => exact hquiet (quiet_of_asked works _ _) nofun
  | unwritten hflushed hbuilt happended hasked hfailed =>
    exact hquiet (IsTrans.trans _ _ _ (quiet_of_asked works _ _) (works.write_error _ _ hfailed)) nofun
  | nothing => exact hquiet (quiet_of_asked works _ _) nofun
  | written hflushed hbuilt happended hasked hwritten =>
    rw [batch?, hstep, hbuilt]
    exact output_of_written works hflushed happended sound hwritten

theorem output_through {o : Sender.Outlet σ δ} (works : o.Works) (st : Station σ) (sound : o.Sound st.reporter.sender)
    (turns : List (Turn σ))
    (between : ∀ sender instruments, Turn.meanwhile sender instruments ∈ turns → ∀ s, o.Quiet s (sender s)) :
    o.output (st.through turns).reporter.sender =
        (batches (calls st turns)).foldl o.put (o.output st.reporter.sender) ∧
      ∀ call ∈ calls st turns, o.Sound call.before.reporter.sender := by
  have hsound := through_invariant (I := fun st' => o.Sound st'.reporter.sender) st turns sound
    (fun call h => (call.puts works h).1)
    (fun st' sender instruments hmem h => (between sender instruments hmem st'.reporter.sender h).1)
  let P (st' : Station σ) (made : List (Call σ)) : Prop :=
    o.Sound st'.reporter.sender ∧
      o.output st'.reporter.sender = (batches made).foldl o.put (o.output st.reporter.sender)
  have hrun : P (st.through turns) (calls st turns) := by
    refine through_induction (P := P) st turns ⟨sound, rfl⟩ ?_ ?_
    · rintro call made ⟨hbefore, houtput⟩
      obtain ⟨hafter, hputs⟩ := call.puts works hbefore
      refine ⟨hafter, ?_⟩
      rw [hputs, houtput, batches_append, List.foldl_append]
      rfl
    · rintro st' made sender instruments hmem ⟨hbefore, houtput⟩
      obtain ⟨hafter, hsame⟩ := between sender instruments hmem _ hbefore
      exact ⟨hafter, hsame.trans houtput⟩
  exact ⟨hrun.2, hsound.2⟩

theorem Call.batch?_of_written {call : Call σ} {n k : Nat} (h : call.step.result = .ok (.written n k)) :
    ∃ batch, call.batch? = some batch ∧ batch.length = n := by
  obtain ⟨outcome, _, ⟨hresult, -⟩, hending⟩ := exists_ending call.before call.snapshot call.now
  cases h.symm.trans hresult
  cases hending with
  | @written c _ hbuilt =>
    refine ⟨c.points, ?_, rfl⟩
    rw [batch?, h, hbuilt]

theorem Call.nothingToWrite_iff {o : Sender.Outlet σ δ} (works : o.Works) (hanswer : o.answer = none) (call : Call σ)
    (sound : o.Sound call.before.reporter.sender) (k : Nat) :
    call.step.result = .ok (.nothingToWrite k) ↔
      call.before.flushed.result = .ok () ∧
        ∃ c, (call.before.built call.snapshot call.now).result = .ok c ∧ c.points = [] ∧ c.skipped = k := by
  constructor
  · intro h
    obtain ⟨outcome, _, ⟨hresult, -⟩, hending⟩ := exists_ending call.before call.snapshot call.now
    cases h.symm.trans hresult
    cases hending with
    | @nothing c hflushed hbuilt happended hasked =>
      exact ⟨hflushed, c, hbuilt, points_of_unanswered works hflushed happended sound hanswer hasked, rfl⟩
  · rintro ⟨hflushed, c, hbuilt, hempty, rfl⟩
    have happended : (call.before.appended c.points).result = .ok () := by
      rw [hempty]
      rfl
    have hasked : (call.before.asked c.points).result = .ok false := by
      rw [answer_of_appended works hflushed happended sound, hanswer, hempty]
      rfl
    exact (report_of_delivered hflushed hbuilt (deliver_of_no_data happended hasked)).1

end Reporter

end MetricReporting
