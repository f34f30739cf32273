import Mathlib.Order.Defs.Unbundled
import MetricReporting.Action

namespace MetricReporting

def Step.map {σ α β : Type} (f : α → β) (step : Step σ α) : Step σ β := { step with result := step.result.map f }

namespace Action

variable {σ α β : Type}

theorem bind_of_ok {first : Action σ α} {s : σ} {a : α} (h : (first s).result = .ok a) (next : α → Action σ β) :
    (first >>= next) s =
      { next a (first s).state with events := (first s).events ++ (next a (first s).state).events } := by
  rw [bind_apply]
  cases hstep : first s with
  | mk result state events =>
    rw [hstep] at h
    subst h
    rfl

theorem bind_of_error {first : Action σ α} {s : σ} {fault : Fault} (h : (first s).result = .error fault)
    (next : α → Action σ β) : (first >>= next) s = ⟨.error fault, (first s).state, (first s).events⟩ := by
  rw [bind_apply]
  cases hstep : first s with
  | mk result state events =>
    rw [hstep] at h
    subst h
    rfl

theorem result_bind_eq_ok {first : Action σ α} {next : α → Action σ β} {s : σ} {b : β}
    (h : ((first >>= next) s).result = .ok b) :
    ∃ a, (first s).result = .ok a ∧ (next a (first s).state).result = .ok b ∧
      ((first >>= next) s).state = (next a (first s).state).state := by
  cases hfirst : (first s).result with
  | error fault =>
    rw [bind_of_error hfirst] at h
    cases h
  | ok a =>
    rw [bind_of_ok hfirst] at h ⊢
    exact ⟨a, rfl, h, rfl⟩

end Action

def Step.Together {σ β γ : Type} (one : Step σ β) (R : β → σ → γ → σ → Prop) (other : Step σ γ) : Prop :=
  (∃ fault, one.result = .error fault ∧ other.result = .error fault) ∨
    ∃ b c, one.result = .ok b ∧ other.result = .ok c ∧ R b one.state c other.state

theorem Step.Together.of_eq {σ β γ : Type} {R : β → σ → γ → σ → Prop} {one : Step σ β} {other : Step σ γ} {b : β}
    {c : γ} {s s' : σ} {events events' : List Event} (hone : one = ⟨.ok b, s, events⟩)
    (hother : other = ⟨.ok c, s', events'⟩) (h : R b s c s') : one.Together R other := by
  rw [hone, hother]
  exact .inr ⟨b, c, rfl, rfl, h⟩

def Step.Ends {σ α : Type} (step : Step σ α) (result : Except Fault α) (s : σ) : Prop :=
  step.result = result ∧ step.state = s

namespace Step.Ends

variable {σ τ α β : Type}

theorem self (step : Step σ α) {result : Except Fault α} (h : step.result = result) :
    step.Ends result step.state := ⟨h, rfl⟩

theorem bind_ok {first : Action σ α} {next : α → Action σ β} {s s' s'' : σ} {a : α} {result : Except Fault β}
    (h : (first s).Ends (.ok a) s') (hnext : (next a s').Ends result s'') :
    ((first >>= next) s).Ends result s'' := by
  obtain ⟨hok, rfl⟩ := h
  rw [Action.bind_of_ok hok]
  exact hnext

theorem bind_error {first : Action σ α} {next : α → Action σ β} {s s' : σ} {fault : Fault}
    (h : (first s).Ends (.error fault) s') : ((first >>= next) s).Ends (.error fault) s' := by
  obtain ⟨herror, rfl⟩ := h
  rw [Action.bind_of_error herror]
  exact ⟨rfl, rfl⟩

theorem on {action : Action τ α} {part : σ → τ} {put : τ → σ → σ} {s : σ} {result : Except Fault α} {t : τ}
    (h : (action (part s)).Ends result t) : (action.on part put s).Ends result (put t s) := by
  obtain ⟨hresult, rfl⟩ := h
  exact ⟨hresult, rfl⟩

end Step.Ends

namespace Action

variable {σ α β : Type}

theorem forM_log (events : List Event) (s : σ) : (forM events log : Action σ Unit) s = ⟨.ok (), s, events⟩ := by
  induction events with
  | nil => rfl
  | cons e rest ih =>
    have hlog : ((log e : Action σ Unit) s).result = .ok () := rfl
    rw [List.forM_cons, bind_of_ok hlog, show (log e : Action σ Unit) s = ⟨.ok (), s, [e]⟩ from rfl, ih]
    rfl

theorem map_apply (f : α → β) (action : Action σ α) (s : σ) : (f <$> action) s = (action s).map f := by
  change (action >>= fun a => Pure.pure (f a)) s = _
  rw [bind_apply]
  rcases action s with ⟨fault | a, s', events⟩
  · rfl
  · exact congrArg (Step.mk _ _) (List.append_nil events)

theorem id_map (action : Action σ α) : id <$> action = action := by
  funext s
  rw [map_apply]
  rcases action s with ⟨fault | a, s', events⟩ <;> rfl

theorem bind_assoc {γ : Type} (action : Action σ α) (next : α → Action σ β) (last : β → Action σ γ) :
    action >>= next >>= last = action >>= fun a => next a >>= last := by
  funext s
  cases h : (action s).result with
  | error fault =>
    have hfirst : ((action >>= next) s).result = .error fault := by rw [bind_of_error h]
    rw [bind_of_error hfirst, bind_of_error h, bind_of_error h]
  | ok a =>
    have hfirst : ((action >>= next) s).result = (next a (action s).state).result := by rw [bind_of_ok h]
    cases hnext : (next a (action s).state).result with
    | error fault => rw [bind_of_error (hfirst.trans hnext), bind_of_ok h, bind_of_ok h, bind_of_error hnext]
    | ok b =>
      rw [bind_of_ok (hfirst.trans hnext), bind_of_ok h, bind_of_ok h, bind_of_ok hnext, List.append_assoc]

instance : LawfulMonad (Action σ) := .mk' _ id_map (fun _ _ => rfl) bind_assoc

theorem state_map (action : Action σ α) (f : α → β) (s : σ) :
    ((do return f (← action) : Action σ β) s).state = (action s).state := by
  rw [bind_pure_comp, map_apply, Step.map]

theorem result_foldlM_eq_error (f : β → α → Action σ β) (l : List α) (b : β) (s : σ) (fault : Fault) :
    (l.foldlM f b s).result = .error fault ↔
      ∃ before a after c, l = before ++ a :: after ∧ (before.foldlM f b s).result = .ok c ∧
        (f c a (before.foldlM f b s).state).result = .error fault := by
  constructor
  · intro h
    induction l generalizing b s with
    | nil => cases h
    | cons x rest ih =>
      rw [List.foldlM_cons] at h
      cases hx : (f b x s).result with
      | error fault' =>
        rw [bind_of_error hx] at h
        exact ⟨[], x, rest, b, rfl, rfl, hx.trans h⟩
      | ok c' =>
        rw [bind_of_ok hx] at h
        obtain ⟨before, a, after, c, rfl, hbefore, ha⟩ := ih c' _ h
        refine ⟨x :: before, a, after, c, rfl, ?_⟩
        rw [List.foldlM_cons, bind_of_ok hx]
        exact ⟨hbefore, ha⟩
  · rintro ⟨before, a, after, c, rfl, hbefore, ha⟩
    rw [List.foldlM_append, bind_of_ok hbefore, List.foldlM_cons, bind_of_error ha]

theorem result_foldlM_append_eq_ok {f : β → α → Action σ β} {l l' : List α} {b c : β} {s : σ}
    (h : ((l ++ l').foldlM f b s).result = .ok c) :
    ∃ b', (l.foldlM f b s).result = .ok b' ∧ (l'.foldlM f b' (l.foldlM f b s).state).result = .ok c := by
  rw [List.foldlM_append] at h
  obtain ⟨b', hl, hl', -⟩ := result_bind_eq_ok h
  exact ⟨b', hl, hl'⟩

theorem forM_eq_foldlM (f : α → Action σ Unit) (l : List α) :
    (forM l f : Action σ Unit) = l.foldlM (fun _ => f) () := by
  induction l with
  | nil => rfl
  | cons x rest ih => rw [List.forM_cons, List.foldlM_cons, ih]

theorem result_forM_eq_error (f : α → Action σ Unit) (l : List α) (s : σ) (fault : Fault) :
    ((forM l f : Action σ Unit) s).result = .error fault ↔
      ∃ before a after, l = before ++ a :: after ∧ ((forM before f : Action σ Unit) s).result = .ok () ∧
        (f a ((forM before f : Action σ Unit) s).state).result = .error fault := by
  rw [forM_eq_foldlM, result_foldlM_eq_error]
  simp only [forM_eq_foldlM]
  constructor
  · rintro ⟨before, a, after, ⟨⟩, h⟩
    exact ⟨before, a, after, h⟩
  · rintro ⟨before, a, after, h⟩
    exact ⟨before, a, after, (), h⟩

theorem forM_cases (f : α → Action σ Unit) {P : List α → σ → Prop}
    (step : ∀ before a s, P before s → (f a s).result = .ok () → P (before ++ [a]) (f a s).state) (l : List α) {s : σ}
    (start : P [] s) :
    (((forM l f : Action σ Unit) s).result = .ok () ∧ P l ((forM l f : Action σ Unit) s).state) ∨
      ∃ before a after s' fault, l = before ++ a :: after ∧ P before s' ∧
        (f a s').Ends (.error fault) ((forM l f : Action σ Unit) s).state ∧
        ((forM l f : Action σ Unit) s).result = .error fault := by
  suffices hfrom : ∀ (rest before : List α) (s : σ), P before s →
      (((forM rest f : Action σ Unit) s).result = .ok () ∧ P (before ++ rest) ((forM rest f : Action σ Unit) s).state) ∨
        ∃ more a after s' fault, rest = more ++ a :: after ∧ P (before ++ more) s' ∧
          (f a s').Ends (.error fault) ((forM rest f : Action σ Unit) s).state ∧
          ((forM rest f : Action σ Unit) s).result = .error fault from hfrom l [] s start
  intro rest
  induction rest with
  | nil =>
    intro before s h
    rw [List.append_nil]
    exact .inl ⟨rfl, h⟩
  | cons a rest ih =>
    intro before s h
    rw [List.forM_cons]
    cases ha : (f a s).result with
    | error fault =>
      rw [bind_of_error ha]
      refine .inr ⟨[], a, rest, s, fault, rfl, ?_, .self _ ha, rfl⟩
      rw [List.append_nil]
      exact h
    | ok _ =>
      rw [bind_of_ok ha]
      rcases ih (before ++ [a]) _ (step before a s h ha) with
        ⟨hok, hrest⟩ | ⟨more, a', after, s', fault, rfl, hmore, hends, herror⟩
      · rw [List.append_assoc] at hrest
        exact .inl ⟨hok, hrest⟩
      · rw [List.append_assoc] at hmore
        exact .inr ⟨a :: more, a', after, s', fault, rfl, hmore, hends, herror⟩

theorem foldlM_together {γ : Type} {f : β → α → Action σ β} {g : γ → α → Action σ γ}
    {R : List α → β → σ → γ → σ → Prop}
    (step : ∀ a rest b s c s', R (a :: rest) b s c s' → (f b a s).Together (R rest) (g c a s'))
    (l : List α) {b : β} {s : σ} {c : γ} {s' : σ} (start : R l b s c s') :
    (l.foldlM f b s).Together (R []) (l.foldlM g c s') := by
  induction l generalizing b s c s' with
  | nil => exact .inr ⟨b, c, rfl, rfl, start⟩
  | cons a rest ih =>
    rw [List.foldlM_cons, List.foldlM_cons]
    rcases step a rest b s c s' start with ⟨fault, hf, hg⟩ | ⟨b', c', hf, hg, hnext⟩
    · rw [bind_of_error hf, bind_of_error hg]
      exact .inl ⟨fault, rfl, rfl⟩
    · rw [bind_of_ok hf, bind_of_ok hg]
      exact ih hnext

def Keeps (R : σ → σ → Prop) (action : Action σ α) : Prop := ∀ s, R s (action s).state

def PassesOn (P : σ → Prop) (s s' : σ) : Prop := P s → P s'

instance (P : σ → Prop) : IsPreorder σ (PassesOn P) where
  refl _ h := h
  trans _ _ _ h h' := h' ∘ h

namespace Keeps

variable {R : σ → σ → Prop} [IsPreorder σ R]

theorem pure (a : α) : Keeps R (Pure.pure a : Action σ α) := fun s => Std.Refl.refl s

theorem get : Keeps R (Action.get : Action σ σ) := fun s => Std.Refl.refl s

theorem stop (fault : Fault) : Keeps R (Action.stop fault : Action σ α) := fun s => Std.Refl.refl s

theorem bind {first : Action σ α} {next : α → Action σ β} (h : Keeps R first) (hnext : ∀ a, Keeps R (next a)) :
    Keeps R (first >>= next) := by
  intro s
  cases hfirst : (first s).result with
  | error fault =>
    rw [bind_of_error hfirst]
    exact h s
  | ok a =>
    rw [bind_of_ok hfirst]
    exact IsTrans.trans _ _ _ (h s) (hnext a _)

theorem foldlM {f : β → α → Action σ β} (l : List α) (h : ∀ b a, Keeps R (f b a)) (b : β) :
    Keeps R (l.foldlM f b) := by
  induction l generalizing b with
  | nil => exact pure b
  | cons a rest ih =>
    rw [List.foldlM_cons]
    exact bind (h b a) ih

theorem forM {f : α → Action σ Unit} (l : List α) (h : ∀ a, Keeps R (f a)) :
    Keeps R (forM l f : Action σ Unit) := by
  rw [forM_eq_foldlM]
  exact foldlM l (fun _ => h) ()

end Keeps

end Action

end MetricReporting
