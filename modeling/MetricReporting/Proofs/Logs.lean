import MetricReporting.Proofs.Reports

namespace MetricReporting

def Step.LogsOnly {σ α : Type} (P : Event → Prop) (step : Step σ α) : Prop := ∀ e ∈ step.events, P e

namespace Step.LogsOnly

variable {σ τ α β : Type} {P : Event → Prop}

theorem of_silent {step : Step σ α} (h : step.events = []) : step.LogsOnly P := by
  intro e he
  rw [h] at he
  cases he

theorem log {e : Event} (h : P e) (s : σ) : (Action.log e s).LogsOnly P := by
  intro e' he'
  rw [List.mem_singleton.mp he']
  exact h

theorem bind {first : Action σ α} {next : α → Action σ β} {s : σ} (h : (first s).LogsOnly P)
    (hnext : ∀ a, (first s).result = .ok a → (next a (first s).state).LogsOnly P) :
    ((first >>= next) s).LogsOnly P := by
  cases hfirst : (first s).result with
  | error fault =>
    rw [Action.bind_of_error hfirst]
    exact h
  | ok a =>
    rw [Action.bind_of_ok hfirst]
    intro e he
    rcases List.mem_append.mp he with he | he
    · exact h e he
    · exact hnext a hfirst e he

theorem foldlM {f : β → α → Action σ β} (I : β → Prop) (l : List α)
    (h : ∀ b a s, I b → (f b a s).LogsOnly P ∧ ∀ b', (f b a s).result = .ok b' → I b') {b : β} (hb : I b) (s : σ) :
    (l.foldlM f b s).LogsOnly P := by
  induction l generalizing b s with
  | nil => exact of_silent rfl
  | cons a rest ih =>
    rw [List.foldlM_cons]
    obtain ⟨hlogs, hkeeps⟩ := h b a s hb
    exact bind hlogs (fun b' hb' => ih (hkeeps b' hb') _)

theorem forM {f : α → Action σ Unit} (l : List α) (h : ∀ a s, (f a s).LogsOnly P) (s : σ) :
    ((forM l f : Action σ Unit) s).LogsOnly P := by
  rw [Action.forM_eq_foldlM]
  exact foldlM (fun _ => True) l (fun _ a s _ => ⟨h a s, fun _ _ => trivial⟩) trivial s

end Step.LogsOnly

def Action.IsSilent {σ α : Type} (action : Action σ α) : Prop := ∀ s, (action s).events = []

theorem Action.IsSilent.bind {σ α β : Type} {first : Action σ α} {next : α → Action σ β} (h : first.IsSilent)
    (hnext : ∀ a, (next a).IsSilent) : (first >>= next).IsSilent := by
  intro s
  cases hfirst : (first s).result with
  | error fault =>
    rw [bind_of_error hfirst]
    exact h s
  | ok a => rw [bind_of_ok hfirst, h s, hnext a, List.append_nil]

theorem Gauge.silent_read (h : Handle .gauge) : (Gauge.read h).IsSilent := by
  intro s
  cases hanswer : answer s h with
  | value v => rw [read_of_value hanswer]
  | panic payload => rw [read_of_panic hanswer]

namespace Metered

theorem silent_hold (metered : Metered) : metered.hold.IsSilent := by
  intro s
  cases h : (metered.get s).poisoned with
  | false => rw [hold_of_sound h]
  | true => rw [hold_of_poisoned h]

theorem silent_readRate (metered : Metered) (horizon : Horizon) : (metered.readRate horizon).IsSilent :=
  .bind metered.silent_hold fun _ => .bind (fun _ => rfl) fun _ => .bind (fun _ => rfl) fun _ _ => rfl

theorem silent_meanRate (metered : Metered) : metered.meanRate.IsSilent :=
  .bind metered.silent_hold fun _ => .bind (fun _ => rfl) fun _ _ => rfl

end Metered

theorem Units.silent_rateFields (units : Units) (metered : Metered) : (units.rateFields metered).IsSilent :=
  .bind (metered.silent_readRate .m1) fun _ => .bind (metered.silent_readRate .m5) fun _ =>
    .bind (metered.silent_readRate .m15) fun _ => .bind metered.silent_meanRate fun _ _ => rfl

theorem Units.silent_fields (units : Units) (metric : Metric) : (units.fields metric).IsSilent := by
  obtain ⟨kind, h⟩ := metric
  cases kind with
  | gauge => exact .bind (Gauge.silent_read h) fun _ _ => rfl
  | counter => exact fun _ => rfl
  | histogram => exact fun _ => rfl
  | meter => exact .bind (Metered.silent_hold _) fun _ => .bind (units.silent_rateFields _) fun _ _ => rfl
  | timer => exact .bind (fun _ => rfl) fun _ => .bind (units.silent_rateFields _) fun _ _ => rfl

structure Sender.LogsOnly (σ : Type) [Sender σ] (P : Event → Prop) : Prop where
  flush (s : σ) : (Sender.flush s).LogsOnly P
  append (p : Point) (s : σ) : (Sender.append p s).LogsOnly P
  hasData (s : σ) : (Sender.hasData s).LogsOnly P
  write (s : σ) : (Sender.write s).LogsOnly P

namespace Reporter

variable {σ : Type} [Sender σ] {P : Event → Prop}

theorem deliver_logsOnly (h : Sender.LogsOnly σ P) (c : Cycle) (s : σ) : (deliver c s).LogsOnly P := by
  refine .bind (.forM c.points h.append s) fun _ _ => .bind (h.hasData _) fun answer _ => ?_
  split
  · exact .bind (h.write _) fun _ _ => .of_silent rfl
  · exact .of_silent rfl

theorem report_logsOnly (h : Sender.LogsOnly σ P) (hdiscarded : ∀ cause, P (.dataDiscarded cause))
    (hcomplete : ∀ points skipped filtered, P (.cycleComplete points skipped filtered)) (st : Station σ)
    (snapshot : Snapshot) (now : Instant) (hbuilt : (st.built snapshot now).LogsOnly P) :
    (report snapshot now st).LogsOnly P := by
  have hcycle : (cycle snapshot now st).LogsOnly P := by
    refine .bind (h.flush st.reporter.sender) fun _ _ => .bind (.of_silent rfl) fun st' hst' => ?_
    cases hst'
    refine .bind hbuilt fun c _ => .bind (deliver_logsOnly h c _) fun outcome _ => ?_
    exact .bind (.of_silent rfl) fun _ _ => .bind (.log (hcomplete _ _ _) _) fun _ _ => .of_silent rfl
  have hattempt : (Action.attempt (cycle snapshot now) st).LogsOnly P := hcycle
  refine .bind hattempt fun ended _ => ?_
  cases ended with
  | ok outcome => exact .of_silent rfl
  | error fault => exact .bind (.log (hdiscarded _) _) fun _ _ => .of_silent rfl

end Reporter

end MetricReporting
