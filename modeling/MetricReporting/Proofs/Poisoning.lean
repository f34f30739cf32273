import MetricReporting.Proofs.Activity
/-!
What a panic can do for good: a filter that panics while a client holds the registry poisons it, and nothing else does,
neither a metric nor a sender nor a reporter's own filter. A poisoned registry is never reported on again.
-/
namespace MetricReporting

namespace Operation

def Panics (i : Instruments) : Operation → Prop
  | select filter => ∃ payload, Registry.admitted filter i = .error payload
  | _ => False

theorem poisoned_select (filter : Filter) (i : Instruments) :
    ((select filter).perform i).state.registry.poisoned = true ↔
      i.registry.poisoned = true ∨ (select filter).Panics i := by
  cases hpoisoned : i.registry.poisoned with
  | true =>
    have hsame : (Registry.select filter i).Ends (.error (.panic Registry.poison)) i :=
      .bind_error (Registry.metricsByName_of_poisoned i hpoisoned)
    rw [perform, state_perform_of_ends hsame, hpoisoned]
    exact ⟨.inl, fun _ => rfl⟩
  | false =>
    cases hadmitted : Registry.admitted filter i with
    | error payload =>
      rw [perform, state_perform_of_ends (Registry.select_of_panic i hpoisoned hadmitted)]
      exact ⟨fun _ => .inr ⟨payload, hadmitted⟩, fun _ => rfl⟩
    | ok snapshot =>
      rw [perform, state_perform_of_ends (Registry.select_of_admitted i hpoisoned hadmitted), hpoisoned]
      refine ⟨.inl, ?_⟩
      rintro (h | ⟨payload, hpayload⟩)
      · exact h
      · cases hadmitted.symm.trans hpayload

theorem poisoned_perform (op : Operation) (i : Instruments) :
    (op.perform i).state.registry.poisoned = true ↔ i.registry.poisoned = true ∨ op.Panics i := by
  have hkept {i' : Instruments} (h : i'.registry.poisoned = i.registry.poisoned) :
      i'.registry.poisoned = true ↔ i.registry.poisoned = true ∨ False := by
    rw [h, or_false]
  cases op with
  | change c => exact hkept rfl
  | getOrCreate kind object name =>
    rcases Registry.getOrCreate_cases i kind object name with ⟨result, hsame⟩ | ⟨-, hentered⟩
    · rw [perform, state_perform_of_ends hsame]
      exact hkept rfl
    · rw [perform, state_perform_of_ends hentered]
      exact hkept rfl
  | register name metric =>
    rcases Registry.register_cases i name metric with ⟨result, hsame⟩ | ⟨-, hentered⟩
    · rw [perform, hsame.2]
      exact hkept rfl
    · rw [perform, hentered.2]
      exact hkept rfl
  | remove name =>
    rcases Registry.remove_cases i name with ⟨result, hsame⟩ | ⟨inUse, herased⟩
    · rw [perform, state_perform_of_ends hsame]
      exact hkept rfl
    · rw [perform, state_perform_of_ends herased]
      exact hkept rfl
  | select filter => exact poisoned_select filter i

end Operation

variable {σ : Type}

def Station.IsPoisoned (st : Station σ) : Prop := st.instruments.registry.poisoned = true

variable [Sender σ]

namespace Reporter

theorem registry_of_ending {st st' : Station σ} {snapshot : Snapshot} {now : Instant} {outcome : Outcome}
    (h : Ending st snapshot now outcome st') : st'.instruments.registry = st.instruments.registry := by
  cases h <;> rfl

theorem reportInstruments_returns {st : Station σ} (sound : ¬ st.IsPoisoned) (now : Instant) :
    ∃ outcome st', (reportInstruments now st).Ends (.ok outcome) st' ∧
      st'.instruments.registry = st.instruments.registry := by
  obtain ⟨snapshot, -, hreport⟩ := reportInstruments_of_sound st now (Bool.eq_false_iff.mpr sound)
  obtain ⟨outcome, st', hends, hending⟩ := exists_ending st snapshot now
  exact ⟨outcome, st', hreport hends, registry_of_ending hending⟩

theorem reportInstruments_returns_iff (st : Station σ) (now : Instant) :
    (∃ outcome, (reportInstruments now st).result = .ok outcome) ↔ ¬ st.IsPoisoned := by
  constructor
  · rintro ⟨outcome, hok⟩ hpoisoned
    cases hok.symm.trans (reportInstruments_of_poisoned st now hpoisoned).1
  · intro sound
    obtain ⟨outcome, _, hends, -⟩ := reportInstruments_returns sound now
    exact ⟨outcome, hends.1⟩

end Reporter

namespace Deed

def Panics (st : Station σ) : Deed σ → Prop
  | client op => op.Panics st.instruments
  | _ => False

theorem poisoned_run (deed : Deed σ) (st : Station σ) :
    (deed.run st).IsPoisoned ↔ st.IsPoisoned ∨ deed.Panics st := by
  cases deed with
  | report now =>
    refine Iff.trans ?_ (or_false _).symm.to_iff
    by_cases hpoisoned : st.IsPoisoned
    · rw [run, (Reporter.reportInstruments_of_poisoned st now hpoisoned).2]
    · obtain ⟨outcome, st', ⟨-, hstate⟩, hregistry⟩ := Reporter.reportInstruments_returns hpoisoned now
      rw [run, hstate, Station.IsPoisoned, hregistry, Station.IsPoisoned]
  | client op => exact op.poisoned_perform st.instruments
  | adjust change => exact (or_false _).symm.to_iff

end Deed

/-- In the course of some deeds a filter panics while a client holds the registry. -/
def Station.FilterPanics (st : Station σ) : List (Deed σ) → Prop
  | [] => False
  | deed :: rest => deed.Panics st ∨ (deed.run st).FilterPanics rest

theorem Station.not_filterPanics {st : Station σ} {deeds : List (Deed σ)}
    (h : ∀ deed ∈ deeds, ∀ st', ¬ deed.Panics st') : ¬ st.FilterPanics deeds := by
  induction deeds generalizing st with
  | nil => exact id
  | cons deed rest ih =>
    obtain ⟨hdeed, hrest⟩ := List.forall_mem_cons.mp h
    rintro (hpanics | hpanics)
    · exact hdeed st hpanics
    · exact ih hrest hpanics

theorem Station.poisoned_after (st : Station σ) (deeds : List (Deed σ)) :
    (st.after deeds).IsPoisoned ↔ st.IsPoisoned ∨ st.FilterPanics deeds := by
  induction deeds generalizing st with
  | nil => exact (or_false _).symm.to_iff
  | cons deed rest ih =>
    refine (ih (deed.run st)).trans ?_
    rw [deed.poisoned_run, or_assoc]
    rfl

end MetricReporting
