import MetricReporting.Report.Cycle

namespace MetricReporting

structure Reporter (σ : Type) where
  sender : σ
  settings : CycleSettings := {}
  previous : IdleTable := {}
deriving Inhabited

structure Station (σ : Type) where
  reporter : Reporter σ
  instruments : Instruments := {}
deriving Inhabited

namespace Station

variable {σ α : Type}

def withSender (action : Action σ α) : Action (Station σ) α :=
  action.on (·.reporter.sender) (fun sender s => { s with reporter := { s.reporter with sender } })

def withInstruments (action : Action Instruments α) : Action (Station σ) α :=
  action.on (·.instruments) (fun instruments s => { s with instruments })

def withStore (action : Action Store α) : Action (Station σ) α :=
  withInstruments (Instruments.onStore action)

end Station

end MetricReporting
