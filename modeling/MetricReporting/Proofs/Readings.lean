import MetricReporting.Proofs.TickHistory
import MetricReporting.Proofs.Visits
/-!
What looking at metrics leaves as it was. A meter catches up when it is read, so two stores show the same if their
objects are the same once they have caught up with the clock. Reading a metric leads from a store to one that shows the
same, and what is read is the same in both (`Units.isReading_fields`).
-/
namespace MetricReporting

namespace Meter

variable {α : Type} [Scalar α] {m m' : Meter α} {now : Nat}

theorem tickUpTo_tickUpTo (m : Meter α) (now : Nat) : (m.tickUpTo now).tickUpTo now = m.tickUpTo now := by
  apply tickUpTo_of_le
  have hreaches := le_tickedAt_use m now (.read .m1)
  rw [use_read] at hreaches
  exact hreaches

theorem start_tickUpTo (m : Meter α) (now : Nat) : (m.tickUpTo now).start = m.start := by
  rw [tickUpTo_eq, start_tickTimes]

theorem readRate_of_tickUpTo_eq (h : m'.tickUpTo now = m.tickUpTo now) (horizon : Horizon) :
    m'.readRate now horizon = m.readRate now horizon := by
  rw [readRate, h]
  rfl

theorem meanRate_of_tickUpTo_eq (h : m'.tickUpTo now = m.tickUpTo now) : m'.meanRate now = m.meanRate now := by
  have hcount : m'.count = m.count := by rw [← count_tickUpTo m' now, h, count_tickUpTo]
  have hstart : m'.start = m.start := by rw [← start_tickUpTo m' now, h, start_tickUpTo]
  rw [meanRate, hcount, hstart]
  rfl

end Meter

def Kind.caughtUp (now : Nat) : (kind : Kind) → kind.Object → kind.Object
  | .gauge, o => o
  | .counter, o => o
  | .histogram, o => o
  | .meter, (m : Meter Float) => m.tickUpTo now
  | .timer, (t : Timer Float) => { t with meter := t.meter.tickUpTo now }

theorem Kind.caughtUp_caughtUp (now : Nat) (kind : Kind) (o : kind.Object) :
    kind.caughtUp now (kind.caughtUp now o) = kind.caughtUp now o := by
  cases kind with
  | gauge => rfl
  | counter => rfl
  | histogram => rfl
  | meter => exact Meter.tickUpTo_tickUpTo _ now
  | timer =>
    have hmeter := Meter.tickUpTo_tickUpTo (Timer.meter o) now
    simp only [caughtUp, hmeter]

namespace Store

/-- Two stores have the same objects, but for ticks that their clock has made due. -/
structure SameReadings (s s' : Store) : Prop where
  clock : s'.clock = s.clock
  size (kind : Kind) : (s'.objects kind).size = (s.objects kind).size
  object {kind : Kind} (h : Handle kind) : kind.caughtUp s.now (s'.get h) = kind.caughtUp s.now (s.get h)

namespace SameReadings

variable {s s' s'' : Store}

theorem now (h : s.SameReadings s') : s'.now = s.now := congrArg Clock.now h.clock

theorem refl (s : Store) : s.SameReadings s := ⟨rfl, fun _ => rfl, fun _ => rfl⟩

theorem symm (h : s.SameReadings s') : s'.SameReadings s := by
  refine ⟨h.clock.symm, fun kind => (h.size kind).symm, fun handle => ?_⟩
  rw [h.now]
  exact (h.object handle).symm

theorem trans (h : s.SameReadings s') (h' : s'.SameReadings s'') : s.SameReadings s'' := by
  refine ⟨h'.clock.trans h.clock, fun kind => (h'.size kind).trans (h.size kind), fun handle => ?_⟩
  have hobject := h'.object handle
  rw [h.now] at hobject
  exact hobject.trans (h.object handle)

instance : IsPreorder Store SameReadings where
  refl := refl
  trans _ _ _ := trans

theorem setProbe (s : Store) (p : ProbeId) (probe : Probe) : s.SameReadings (s.setProbe p probe) := by
  refine ⟨rfl, fun kind => ?_, fun {kind} handle => ?_⟩
  · cases kind <;> rfl
  · cases kind <;> rfl

theorem catchUp {kind : Kind} (s : Store) (h : Handle kind) :
    s.SameReadings (s.set h (kind.caughtUp s.now (s.get h))) := by
  refine ⟨?_, size_objects_set s h _, ?_⟩
  · cases kind <;> rfl
  · intro other h'
    by_cases hk : kind = other
    · subst hk
      rw [get_set]
      split
      · rename_i hself
        rw [hself.1, Kind.caughtUp_caughtUp]
      · rfl
    · rw [get_set_of_kind_ne s h _ h' hk]

theorem tickUpTo_get (h : s.SameReadings s') (metered : Metered) :
    (metered.get s').tickUpTo s.now = (metered.get s).tickUpTo s.now := by
  cases metered with
  | meter handle => exact h.object handle
  | timer handle => exact congrArg Timer.meter (h.object handle)

theorem gauge_get (h : s.SameReadings s') (handle : Handle .gauge) : s'.get handle = s.get handle := h.object handle

theorem counter_get (h : s.SameReadings s') (handle : Handle .counter) : s'.get handle = s.get handle := h.object handle

theorem histogram_get (h : s.SameReadings s') (handle : Handle .histogram) : s'.get handle = s.get handle :=
  h.object handle

theorem timer_get (h : s.SameReadings s') (handle : Handle .timer) :
    Timer.histogram (s'.get handle) = Timer.histogram (s.get handle) := by
  have hobject : Timer.histogram (Kind.caughtUp s.now .timer (s'.get handle)) =
      Timer.histogram (Kind.caughtUp s.now .timer (s.get handle)) := congrArg Timer.histogram (h.object handle)
  exact hobject

theorem count? (h : s.SameReadings s') (x : Metric) : x.count? s' = x.count? s := by
  obtain ⟨kind, handle⟩ := x
  rw [Metric.count?_eq, Metric.count?_eq]
  have hobject := h.object handle
  cases kind with
  | gauge => rfl
  | counter => exact congrArg (fun c : Counter => some c.count) hobject
  | histogram => exact congrArg (fun o : Histogram => some o.count) hobject
  | meter =>
    have hcount : (Meter.tickUpTo (s'.get handle) s.now).count = (Meter.tickUpTo (s.get handle) s.now).count :=
      congrArg Meter.count hobject
    rw [Meter.count_tickUpTo, Meter.count_tickUpTo] at hcount
    exact congrArg some hcount
  | timer => exact congrArg (fun o : Histogram => some o.count) (h.timer_get handle)

end SameReadings

theorem probes_set {kind : Kind} (s : Store) (h : Handle kind) (o : kind.Object) : (s.set h o).probes = s.probes := by
  cases kind <;> rfl

theorem probe_setProbe (s : Store) (p p' : ProbeId) (probe : Probe) :
    (s.setProbe p probe).probe p' = if p' = p ∧ p.index < s.probes.size then probe else s.probe p' := by
  obtain ⟨i⟩ := p
  obtain ⟨i'⟩ := p'
  simp only [Store.probe, setProbe, Array.getD_eq_getD_getElem?, Array.getElem?_setIfInBounds, ProbeId.mk.injEq]
  by_cases hsame : i = i'
  · subst hsame
    by_cases hin : i < s.probes.size <;> simp [hin]
  · simp [hsame, Ne.symm hsame]

def SameProbes (s s' : Store) : Prop := s'.probes = s.probes

instance : IsPreorder Store SameProbes where
  refl _ := rfl
  trans _ _ _ h h' := Eq.trans h' h

structure SameAnswers (s s' : Store) : Prop where
  size : s'.probes.size = s.probes.size
  answers (p : ProbeId) : (s'.probe p).answers = (s.probe p).answers

namespace SameAnswers

theorem refl (s : Store) : s.SameAnswers s := ⟨rfl, fun _ => rfl⟩

instance : IsPreorder Store SameAnswers where
  refl := refl
  trans _ _ _ h h' := ⟨h'.size.trans h.size, fun p => (h'.answers p).trans (h.answers p)⟩

theorem of_probes_eq {s s' : Store} (h : s'.probes = s.probes) : s.SameAnswers s' := by
  constructor
  · rw [h]
  · intro p
    rw [probe, h]
    rfl

theorem asked (s : Store) (h : Handle .gauge) : s.SameAnswers (Gauge.asked s h) := by
  constructor
  · simp [Gauge.asked, setProbe]
  · intro p
    rw [Gauge.asked, probe_setProbe]
    split
    · rename_i hself
      rw [hself.1]
    · rfl

end SameAnswers

structure Alike (s s' : Store) : Prop extends s.SameReadings s' where
  probes : s'.probes = s.probes

theorem Alike.refl (s : Store) : s.Alike s := ⟨.refl s, rfl⟩

theorem Alike.probe {s s' : Store} (h : s.Alike s') (p : ProbeId) : s'.probe p = s.probe p := by
  rw [Store.probe, h.probes]
  rfl

end Store

/-- An action that looks at the metrics and changes nothing that they show: of stores that are alike it gives the same
result, and it leaves them alike. -/
structure Action.IsReading {α : Type} (action : Action Store α) : Prop where
  keeps : action.Keeps Store.SameReadings
  result_eq {s s' : Store} : s.Alike s' → (action s').result = (action s).result
  probes_eq {s s' : Store} : s.Alike s' → (action s').state.probes = (action s).state.probes

namespace Action.IsReading

variable {α β : Type} {action : Action Store α}

theorem alike (h : action.IsReading) {s s' : Store} (halike : s.Alike s') :
    (action s).state.Alike (action s').state where
  toSameReadings := ((h.keeps s).symm.trans halike.toSameReadings).trans (h.keeps s')
  probes := h.probes_eq halike

theorem pure (a : α) : (Pure.pure a : Action Store α).IsReading where
  keeps := .pure a
  result_eq _ := rfl
  probes_eq h := h.probes

theorem bind (h : action.IsReading) {next : α → Action Store β} (hnext : ∀ a, (next a).IsReading) :
    (action >>= next).IsReading where
  keeps := .bind h.keeps fun a => (hnext a).keeps
  result_eq {s s'} halike := by
    have hresult := h.result_eq halike
    cases hfirst : (action s).result with
    | error fault =>
      rw [hfirst] at hresult
      rw [bind_of_error hfirst, bind_of_error hresult]
    | ok a =>
      rw [hfirst] at hresult
      rw [bind_of_ok hfirst, bind_of_ok hresult]
      exact (hnext a).result_eq (h.alike halike)
  probes_eq {s s'} halike := by
    have hresult := h.result_eq halike
    cases hfirst : (action s).result with
    | error fault =>
      rw [hfirst] at hresult
      rw [bind_of_error hfirst, bind_of_error hresult]
      exact h.probes_eq halike
    | ok a =>
      rw [hfirst] at hresult
      rw [bind_of_ok hfirst, bind_of_ok hresult]
      exact (hnext a).probes_eq (h.alike halike)

theorem get_bind {next : Store → Action Store α} (hnext : ∀ {s s'}, s.Alike s' → next s' = next s)
    (h : ∀ s, (next s).IsReading) : (Action.get >>= next).IsReading where
  keeps := .bind .get fun s => (h s).keeps
  result_eq {s s'} halike := by
    have hget (s : Store) : (Action.get s).result = .ok s := rfl
    rw [bind_of_ok (hget s), bind_of_ok (hget s'), hnext halike]
    exact (h s).result_eq halike
  probes_eq {s s'} halike := by
    have hget (s : Store) : (Action.get s).result = .ok s := rfl
    rw [bind_of_ok (hget s), bind_of_ok (hget s'), hnext halike]
    exact (h s).probes_eq halike

end Action.IsReading

theorem Store.SameReadings.poisoned_get {s s' : Store} (h : s.SameReadings s') (metered : Metered) :
    (metered.get s').poisoned = (metered.get s).poisoned := by
  rw [← Meter.poisoned_tickUpTo (metered.get s') s.now, h.tickUpTo_get metered, Meter.poisoned_tickUpTo]

namespace Metered

theorem catchesUp_sameProbes (metered : Metered) : metered.CatchesUp Store.SameProbes := by
  intro s
  cases metered <;> rfl

variable {s s' : Store}

theorem result_readRate_of_sameReadings (metered : Metered) (h : s.SameReadings s') (horizon : Horizon) :
    (metered.readRate horizon s').result = (metered.readRate horizon s).result := by
  have hsame := h.poisoned_get metered
  cases hpoisoned : (metered.get s).poisoned with
  | true => rw [readRate_of_poisoned hpoisoned, readRate_of_poisoned (hsame.trans hpoisoned)]
  | false =>
    rw [readRate_of_sound hpoisoned, readRate_of_sound (hsame.trans hpoisoned), h.now,
      Meter.readRate_of_tickUpTo_eq (h.tickUpTo_get metered)]

theorem result_meanRate_of_sameReadings (metered : Metered) (h : s.SameReadings s') :
    (metered.meanRate s').result = (metered.meanRate s).result := by
  have hsame := h.poisoned_get metered
  cases hpoisoned : (metered.get s).poisoned with
  | true => rw [meanRate_of_poisoned hpoisoned, meanRate_of_poisoned (hsame.trans hpoisoned)]
  | false =>
    rw [meanRate_of_sound hpoisoned, meanRate_of_sound (hsame.trans hpoisoned), h.now,
      Meter.meanRate_of_tickUpTo_eq (h.tickUpTo_get metered)]

theorem isReading_readRate (metered : Metered) (horizon : Horizon) : (metered.readRate horizon).IsReading where
  keeps s := by
    rw [state_readRate]
    split
    · exact .refl s
    · cases metered with
      | meter h => exact .catchUp s h
      | timer h => exact .catchUp s h
  result_eq h := metered.result_readRate_of_sameReadings h.toSameReadings horizon
  probes_eq {s s'} h := by
    have hprobes (s : Store) : (metered.readRate horizon s).state.probes = s.probes :=
      metered.catchesUp_sameProbes.keeps_readRate horizon s
    rw [hprobes, hprobes, h.probes]

theorem isReading_meanRate (metered : Metered) : metered.meanRate.IsReading where
  keeps s := by
    rw [state_meanRate]
    exact .refl s
  result_eq h := metered.result_meanRate_of_sameReadings h.toSameReadings
  probes_eq {s s'} h := by
    rw [state_meanRate, state_meanRate]
    exact h.probes

theorem bind_hold_of_sound {α : Type} {metered : Metered} {s : Store} (h : (metered.get s).poisoned = false)
    (next : Meter Float → Action Store α) : (metered.hold >>= next) s = next (metered.get s) s := by
  rw [Action.bind_apply, hold_of_sound h]
  rfl

theorem bind_hold_of_poisoned {α : Type} {metered : Metered} {s : Store} (h : (metered.get s).poisoned = true)
    (next : Meter Float → Action Store α) : (metered.hold >>= next) s = ⟨.error (.panic poison), s, []⟩ := by
  rw [Action.bind_apply, hold_of_poisoned h]

theorem isReading_hold_bind {α : Type} (metered : Metered) {next : Meter Float → Action Store α}
    (hnext : ∀ {s s' : Store}, s.Alike s' → next (metered.get s') = next (metered.get s))
    (h : ∀ m, (next m).IsReading) : (metered.hold >>= next).IsReading where
  keeps := .bind metered.keeps_hold fun m => (h m).keeps
  result_eq {s s'} halike := by
    have hsame := halike.poisoned_get metered
    cases hpoisoned : (metered.get s).poisoned with
    | true => rw [bind_hold_of_poisoned hpoisoned, bind_hold_of_poisoned (hsame.trans hpoisoned)]
    | false =>
      rw [bind_hold_of_sound hpoisoned, bind_hold_of_sound (hsame.trans hpoisoned), hnext halike]
      exact (h _).result_eq halike
  probes_eq {s s'} halike := by
    have hsame := halike.poisoned_get metered
    cases hpoisoned : (metered.get s).poisoned with
    | true =>
      rw [bind_hold_of_poisoned hpoisoned, bind_hold_of_poisoned (hsame.trans hpoisoned)]
      exact halike.probes
    | false =>
      rw [bind_hold_of_sound hpoisoned, bind_hold_of_sound (hsame.trans hpoisoned), hnext halike]
      exact (h _).probes_eq halike

end Metered

theorem Gauge.answer_of_alike {s s' : Store} (h : s.Alike s') (handle : Handle .gauge) :
    answer s' handle = answer s handle := by
  rw [answer, answer, h.gauge_get handle, h.probe]

theorem Gauge.isReading_read (h : Handle .gauge) : (Gauge.read h).IsReading where
  keeps s := by
    rw [state_read]
    exact .setProbe s _ _
  result_eq {s s'} halike := by
    have hanswer := answer_of_alike halike h
    cases hread : answer s h with
    | value v => rw [read_of_value hread, read_of_value (hanswer.trans hread)]
    | panic payload => rw [read_of_panic hread, read_of_panic (hanswer.trans hread)]
  probes_eq {s s'} halike := by
    rw [state_read, state_read, asked, asked, halike.gauge_get h, halike.probe]
    simp only [Store.setProbe, halike.probes]

namespace Units

theorem isReading_rateFields (units : Units) (metered : Metered) : (units.rateFields metered).IsReading :=
  .bind (metered.isReading_readRate .m1) fun _ => .bind (metered.isReading_readRate .m5) fun _ =>
    .bind (metered.isReading_readRate .m15) fun _ => .bind metered.isReading_meanRate fun _ => .pure _

theorem isReading_fields (units : Units) (x : Metric) : (units.fields x).IsReading := by
  obtain ⟨kind, h⟩ := x
  cases kind with
  | gauge => exact .bind (Gauge.isReading_read h) fun _ => .pure _
  | counter =>
    refine .get_bind (fun halike => ?_) fun _ => .pure _
    rw [halike.counter_get h]
  | histogram =>
    refine .get_bind (fun halike => ?_) fun _ => .pure _
    rw [halike.histogram_get h]
  | meter =>
    refine Metered.isReading_hold_bind _ (fun {s s'} halike => ?_) fun _ =>
      .bind (units.isReading_rateFields (.meter h)) fun _ => .pure _
    have hcount : (Metered.get s' (.meter h)).count = (Metered.get s (.meter h)).count :=
      Option.some.inj (halike.count? ⟨.meter, h⟩)
    simp only [hcount]
  | timer =>
    refine .get_bind (fun halike => ?_) fun _ => .bind (units.isReading_rateFields (.timer h)) fun _ => .pure _
    simp only [halike.timer_get h]

theorem probes_fields (units : Units) {x : Metric} (hx : x.kind.isMetered = true) (s : Store) :
    (units.fields x s).state.probes = s.probes := by
  suffices hkeeps : Action.Keeps Store.SameProbes (units.fields x) from hkeeps s
  obtain ⟨kind, h⟩ := x
  cases kind with
  | gauge => cases hx
  | counter => cases hx
  | histogram => cases hx
  | meter =>
    exact .bind (Metered.keeps_hold _) fun _ =>
      .bind (units.keeps_rateFields (Metered.catchesUp_sameProbes _)) fun _ => .pure _
  | timer =>
    exact .bind .get fun _ => .bind (units.keeps_rateFields (Metered.catchesUp_sameProbes _)) fun _ => .pure _

theorem keepsAnswers_fields (units : Units) : ∀ x, Action.Keeps Store.SameAnswers (units.fields x) :=
  units.keeps_fields .asked fun metered s => .of_probes_eq (metered.catchesUp_sameProbes s)

end Units

theorem Store.SameReadings.isPoisoned {s s' : Store} (h : s.SameReadings s') (x : Metric) :
    x.isPoisoned s' = x.isPoisoned s := by
  obtain ⟨kind, handle⟩ := x
  cases kind with
  | gauge => rfl
  | counter => rfl
  | histogram => rfl
  | meter => exact h.poisoned_get (.meter handle)
  | timer => exact h.poisoned_get (.timer handle)

theorem Store.SameReadings.sameCounts {s s' : Store} (h : s.SameReadings s') : s.SameCounts s' :=
  ⟨h.size, h.count?, h.isPoisoned⟩

theorem Metric.panic?_of_alike {s s' : Store} (h : s.Alike s') (x : Metric) : x.panic? s' = x.panic? s := by
  have hpoisoned := h.isPoisoned x
  obtain ⟨kind, handle⟩ := x
  cases kind with
  | gauge => simp only [panic?, Gauge.answer_of_alike h handle]
  | counter => rfl
  | histogram => rfl
  | meter => simp only [panic?, hpoisoned]
  | timer => simp only [panic?, hpoisoned]

namespace Cycle

theorem keepsReadings_build (snapshot : Snapshot) (settings : CycleSettings) (previous : IdleTable) (now : Instant) :
    Action.Keeps Store.SameReadings (build snapshot settings previous now) :=
  .foldlM snapshot.entries (keeps_visit_of_fields settings (fun x => (settings.units.isReading_fields x).keeps) now) _

end Cycle

end MetricReporting
