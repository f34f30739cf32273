import MetricReporting.Event

namespace MetricReporting

structure Step (σ α : Type) where
  result : Except Fault α
  state : σ
  events : List Event := []

def Action (σ α : Type) : Type := σ → Step σ α

namespace Action

variable {σ τ α β : Type}

def pure (a : α) : Action σ α := fun s => { result := .ok a, state := s }

def bind (first : Action σ α) (next : α → Action σ β) : Action σ β := fun s =>
  match first s with
  | ⟨.error e, s, events⟩ => ⟨.error e, s, events⟩
  | ⟨.ok a, s, events⟩ =>
    let step := next a s
    { step with events := events ++ step.events }

instance : Monad (Action σ) where
  pure := Action.pure
  bind := Action.bind

def get : Action σ σ := fun s => { result := .ok s, state := s }

def set (s : σ) : Action σ Unit := fun _ => { result := .ok (), state := s }

def modify (f : σ → σ) : Action σ Unit := fun s => { result := .ok (), state := f s }

def modifyGet (f : σ → α × σ) : Action σ α := fun s => { result := .ok (f s).1, state := (f s).2 }

def log (event : Event) : Action σ Unit := fun s => { result := .ok (), state := s, events := [event] }

def stop (fault : Fault) : Action σ α := fun s => { result := .error fault, state := s }

def fail (cause : Failure) : Action σ α := stop (.failure cause)

def panic (payload : Panic) : Action σ α := stop (.panic payload)

def ofExcept : Except Failure α → Action σ α
  | .ok a => pure a
  | .error cause => fail cause

def orPanic : Except Panic α → Action σ α
  | .ok a => pure a
  | .error payload => panic payload

def attempt (action : Action σ α) : Action σ (Except Fault α) := fun s =>
  let step := action s
  { result := .ok step.result, state := step.state, events := step.events }

def on (part : σ → τ) (put : τ → σ → σ) (action : Action τ α) : Action σ α := fun s =>
  let step := action (part s)
  { result := step.result, state := put step.state s, events := step.events }

def within (t : τ) (action : Action τ α) : Action σ (α × τ) := fun s =>
  let step := action t
  { result := step.result.map (·, step.state), state := s, events := step.events }

theorem bind_apply (first : Action σ α) (next : α → Action σ β) (s : σ) :
    (first >>= next) s = match first s with
      | ⟨.error e, s, events⟩ => ⟨.error e, s, events⟩
      | ⟨.ok a, s, events⟩ =>
        { next a s with events := events ++ (next a s).events } := rfl

theorem pure_apply (a : α) (s : σ) : (Pure.pure a : Action σ α) s = { result := .ok a, state := s } := rfl

end Action

end MetricReporting
