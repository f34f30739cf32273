import MetricReporting.Proofs.Transactions

namespace MetricReporting

variable {σ : Type} [Sender σ]

namespace Reporter

inductive Ending (st : Station σ) (snapshot : Snapshot) (now : Instant) : Outcome → Station σ → Prop
  | unflushed {fault : Fault} (failed : st.flushed.result = .error fault) :
      Ending st snapshot now .discarded (st.left st.flushed.state st.instruments.store)
  | unbuilt {fault : Fault} (flushed : st.flushed.result = .ok ())
      (failed : (st.built snapshot now).result = .error fault) :
      Ending st snapshot now .discarded (st.left st.flushed.state (st.built snapshot now).state)
  | unappended {c : Cycle} {fault : Fault} (flushed : st.flushed.result = .ok ())
      (built : (st.built snapshot now).result = .ok c) (failed : (st.appended c.points).result = .error fault) :
      Ending st snapshot now .discarded (st.left (st.appended c.points).state (st.built snapshot now).state)
  | unasked {c : Cycle} {fault : Fault} (flushed : st.flushed.result = .ok ())
      (built : (st.built snapshot now).result = .ok c) (appended : (st.appended c.points).result = .ok ())
      (failed : (st.asked c.points).result = .error fault) :
      Ending st snapshot now .discarded (st.left (st.asked c.points).state (st.built snapshot now).state)
  | unwritten {c : Cycle} {fault : Fault} (flushed : st.flushed.result = .ok ())
      (built : (st.built snapshot now).result = .ok c) (appended : (st.appended c.points).result = .ok ())
      (asked : (st.asked c.points).result = .ok true) (failed : (st.written c.points).result = .error fault) :
      Ending st snapshot now .discarded (st.left (st.written c.points).state (st.built snapshot now).state)
  | nothing {c : Cycle} (flushed : st.flushed.result = .ok ())
      (built : (st.built snapshot now).result = .ok c) (appended : (st.appended c.points).result = .ok ())
      (asked : (st.asked c.points).result = .ok false) :
      Ending st snapshot now (.nothingToWrite c.skipped)
        ((st.left (st.asked c.points).state (st.built snapshot now).state).goneOver c.previous)
  | written {c : Cycle} (flushed : st.flushed.result = .ok ())
      (built : (st.built snapshot now).result = .ok c) (appended : (st.appended c.points).result = .ok ())
      (asked : (st.asked c.points).result = .ok true) (written : (st.written c.points).result = .ok ()) :
      Ending st snapshot now (.written c.points.length c.skipped)
        ((st.left (st.written c.points).state (st.built snapshot now).state).goneOver c.previous)

theorem report_of_delivered {st : Station σ} {snapshot : Snapshot} {now : Instant} {c : Cycle} {outcome : Outcome}
    {sender : σ} (hflushed : st.flushed.result = .ok ()) (hbuilt : (st.built snapshot now).result = .ok c)
    (h : (deliver c st.flushed.state).Ends (.ok outcome) sender) :
    (report snapshot now st).Ends (.ok outcome)
      ((st.left sender (st.built snapshot now).state).goneOver c.previous) := by
  obtain ⟨hdeliver, rfl⟩ := h
  exact report_of_cycle_ok (cycle_of_delivered hflushed hbuilt hdeliver)

theorem report_of_undelivered {st : Station σ} {snapshot : Snapshot} {now : Instant} {c : Cycle} {fault : Fault}
    {sender : σ} (hflushed : st.flushed.result = .ok ()) (hbuilt : (st.built snapshot now).result = .ok c)
    (h : (deliver c st.flushed.state).Ends (.error fault) sender) :
    (report snapshot now st).Ends (.ok .discarded) (st.left sender (st.built snapshot now).state) := by
  obtain ⟨hdeliver, rfl⟩ := h
  exact report_of_cycle_error (cycle_of_deliver_error hflushed hbuilt hdeliver)

theorem exists_ending (st : Station σ) (snapshot : Snapshot) (now : Instant) :
    ∃ outcome st', (report snapshot now st).Ends (.ok outcome) st' ∧ Ending st snapshot now outcome st' := by
  cases hflushed : st.flushed.result with
  | error fault =>
    exact ⟨_, _, report_of_cycle_error (cycle_of_flush_error hflushed), .unflushed hflushed⟩
  | ok _ =>
    cases hbuilt : (st.built snapshot now).result with
    | error fault =>
      exact ⟨_, _, report_of_cycle_error (cycle_of_build_error hflushed hbuilt), .unbuilt hflushed hbuilt⟩
    | ok c =>
      cases happended : (st.appended c.points).result with
      | error fault =>
        exact ⟨_, _, report_of_undelivered hflushed hbuilt (deliver_of_append_error happended),
          .unappended hflushed hbuilt happended⟩
      | ok _ =>
        cases hasked : (st.asked c.points).result with
        | error fault =>
          exact ⟨_, _, report_of_undelivered hflushed hbuilt (deliver_of_ask_error happended hasked),
            .unasked hflushed hbuilt happended hasked⟩
        | ok answer =>
          cases answer with
          | false =>
            exact ⟨_, _, report_of_delivered hflushed hbuilt (deliver_of_no_data happended hasked),
              .nothing hflushed hbuilt happended hasked⟩
          | true =>
            cases hwritten : (st.written c.points).result with
            | error fault =>
              exact ⟨_, _, report_of_undelivered hflushed hbuilt (deliver_of_write_error happended hasked hwritten),
                .unwritten hflushed hbuilt happended hasked hwritten⟩
            | ok _ =>
              exact ⟨_, _, report_of_delivered hflushed hbuilt (deliver_of_written happended hasked hwritten),
                .written hflushed hbuilt happended hasked hwritten⟩

end Reporter

namespace Station

def meanwhile {σ : Type} (st : Station σ) (sender : σ → σ) (instruments : Instruments → Instruments) : Station σ :=
  { reporter := { st.reporter with sender := sender st.reporter.sender }, instruments := instruments st.instruments }

def turn (st : Station σ) : Reporter.Turn σ → Station σ
  | .report snapshot now => (Reporter.report snapshot now st).state
  | .meanwhile sender instruments => st.meanwhile sender instruments

def through (st : Station σ) (turns : List (Reporter.Turn σ)) : Station σ := turns.foldl turn st

theorem through_append (st : Station σ) (turns more : List (Reporter.Turn σ)) :
    st.through (turns ++ more) = (st.through turns).through more := List.foldl_append

end Station

namespace Reporter

def Turn.Leaves {τ : Type} (part : σ → τ) : Turn σ → Prop
  | .report .. => True
  | .meanwhile sender _ => ∀ s, part (sender s) = part s

theorem through_induction {P : Station σ → List (Call σ) → Prop} (st : Station σ) (turns : List (Turn σ))
    (start : P st [])
    (report : ∀ (call : Call σ) made, P call.before made → P call.after (made ++ [call]))
    (meanwhile : ∀ st' made sender instruments, Turn.meanwhile sender instruments ∈ turns →
      P st' made → P (st'.meanwhile sender instruments) made) :
    P (st.through turns) (calls st turns) := by
  -- The rest of a run starts at any station, with the calls made before it.
  suffices hfrom : ∀ (rest : List (Turn σ)) (st' : Station σ) (made : List (Call σ)), rest ⊆ turns → P st' made →
      P (st'.through rest) (made ++ calls st' rest) from hfrom turns st [] (List.Subset.refl _) start
  intro rest
  induction rest with
  | nil =>
    intro st' made _ hmade
    rw [calls, List.append_nil]
    exact hmade
  | cons turn rest ih =>
    intro st' made hsub hmade
    obtain ⟨hturn, hrest⟩ := List.cons_subset.mp hsub
    cases turn with
    | report snapshot now =>
      rw [calls, List.append_cons]
      exact ih _ _ hrest (report ⟨st', snapshot, now⟩ made hmade)
    | meanwhile sender instruments =>
      exact ih _ _ hrest (meanwhile st' made sender instruments hturn hmade)

theorem through_invariant {I : Station σ → Prop} (st : Station σ) (turns : List (Turn σ)) (start : I st)
    (report : ∀ call : Call σ, I call.before → I call.after)
    (meanwhile : ∀ st' sender instruments, Turn.meanwhile sender instruments ∈ turns →
      I st' → I (st'.meanwhile sender instruments)) :
    I (st.through turns) ∧ ∀ call ∈ calls st turns, I call.before := by
  refine through_induction (P := fun st' made => I st' ∧ ∀ call ∈ made, I call.before) st turns
    ⟨start, List.forall_mem_nil _⟩ ?_ ?_
  · rintro call made ⟨hbefore, hmade⟩
    refine ⟨report call hbefore, ?_⟩
    intro call' hmem
    rcases List.mem_append.mp hmem with hmem | hmem
    · exact hmade call' hmem
    · rw [List.mem_singleton.mp hmem]
      exact hbefore
  · rintro st' made sender instruments hmem ⟨hbefore, hmade⟩
    exact ⟨meanwhile st' sender instruments hmem hbefore, hmade⟩

theorem settings_through (st : Station σ) (turns : List (Turn σ)) :
    (st.through turns).reporter.settings = st.reporter.settings :=
  (through_invariant (I := fun st' => st'.reporter.settings = st.reporter.settings) st turns rfl
    (fun call h => call.isTransaction.settings.trans h) (fun _ _ _ _ h => h)).1

end Reporter

end MetricReporting
