import MetricReporting.Proofs.Suppression
/-!
A cycle that is built twice in a row. The first time its meters catch up with the clock. Where they have done so, the
second time gives the same cycle and moves none of them, and an average that is read is the same before and after
(`Cycle.building_again_changes_nothing`).
-/
namespace MetricReporting

namespace Store

theorem set_get {kind : Kind} (s : Store) (h : Handle kind) (other : Kind) :
    (s.set h (s.get h)).objects other = s.objects other := by
  by_cases hk : kind = other
  · subst hk
    rw [objects_set_self, get, Array.getD_eq_getD_getElem?]
    apply Array.ext_getElem?
    intro i
    rw [Array.getElem?_setIfInBounds]
    split
    · rename_i hi
      subst hi
      split
      · rename_i hin
        simp [hin]
      · rename_i hout
        simp [hout]
    · rfl
  · rw [set, objects_setObjects_of_ne s _ hk]

/-- A store whose clock still stands where it stood in another one. Some objects have caught up with it since, and some
probes have been asked. -/
structure Later (s t : Store) : Prop where
  clock : t.clock = s.clock
  size (kind : Kind) : (t.objects kind).size = (s.objects kind).size
  object {kind : Kind} (h : Handle kind) : t.get h = s.get h ∨ t.get h = kind.caughtUp s.now (s.get h)
  answers : s.SameAnswers t

structure Unmoved (s t : Store) : Prop where
  clock : t.clock = s.clock
  objects (kind : Kind) : t.objects kind = s.objects kind
  answers : s.SameAnswers t

variable {s t u : Store}

theorem Unmoved.later (h : s.Unmoved t) : s.Later t := by
  refine ⟨h.clock, fun kind => congrArg Array.size (h.objects kind), fun handle => .inl ?_, h.answers⟩
  rw [get, h.objects]
  rfl

namespace Later

theorem refl (s : Store) : s.Later s := ⟨rfl, fun _ => rfl, fun _ => .inl rfl, .refl s⟩

theorem sameReadings (h : s.Later t) : s.SameReadings t := by
  refine ⟨h.clock, h.size, fun {kind} handle => ?_⟩
  rcases h.object handle with hsame | hcaught
  · rw [hsame]
  · rw [hcaught, Kind.caughtUp_caughtUp]

theorem trans (h : s.Later t) (h' : t.Later u) : s.Later u := by
  refine ⟨h'.clock.trans h.clock, fun kind => (h'.size kind).trans (h.size kind), fun {kind} handle => ?_,
    IsTrans.trans _ _ _ h.answers h'.answers⟩
  rcases h'.object handle with hsame | hcaught
  · rw [hsame]
    exact h.object handle
  · right
    rw [hcaught, h.sameReadings.now]
    exact h.sameReadings.object handle

theorem catchUp {kind : Kind} (s : Store) (h : Handle kind) : s.Later (s.set h (kind.caughtUp s.now (s.get h))) := by
  refine ⟨(SameReadings.catchUp s h).clock, size_objects_set s h _, fun {other} h' => ?_,
    .of_probes_eq (probes_set s h _)⟩
  by_cases hk : kind = other
  · subst hk
    rw [get_set]
    split
    · rename_i hself
      rw [hself.1]
      exact .inr rfl
    · exact .inl rfl
  · exact .inl (get_set_of_kind_ne s h _ h' hk)

theorem unmoved_catchUp {kind : Kind} {h : Handle kind}
    (hlater : (s.set h (kind.caughtUp s.now (s.get h))).Later t) :
    t.Unmoved (t.set h (kind.caughtUp t.now (t.get h))) := by
  refine ⟨(SameReadings.catchUp t h).clock, fun other => ?_, .of_probes_eq (probes_set t h _)⟩
  have hnow : t.now = s.now := hlater.sameReadings.now.trans (SameReadings.catchUp s h).now
  by_cases hin : h.index < (s.objects kind).size
  · have hself : (s.set h (kind.caughtUp s.now (s.get h))).get h = kind.caughtUp s.now (s.get h) := by
      rw [get_set, if_pos ⟨rfl, hin⟩]
    have hcaught : t.get h = kind.caughtUp s.now (s.get h) := by
      have hobject := hlater.object h
      rw [(SameReadings.catchUp s h).now, hself, Kind.caughtUp_caughtUp, or_self] at hobject
      exact hobject
    rw [hcaught, hnow, Kind.caughtUp_caughtUp, ← hcaught, set_get]
  · have hout : (t.objects kind).size ≤ h.index := by
      rw [hlater.size, size_objects_set]
      exact Nat.not_lt.mp hin
    by_cases hk : kind = other
    · subst hk
      rw [objects_set_self, Array.setIfInBounds_eq_of_size_le hout]
    · rw [set, objects_setObjects_of_ne t _ hk]

end Later

end Store

def Gauge.IsSteady (s : Store) (h : Handle .gauge) : Prop :=
  ∃ v, ∀ asked, (s.probe (s.get h).probe).answers asked = .value v

namespace Gauge.IsSteady

variable {s t : Store} {h : Handle .gauge}

theorem of_same (steady : IsSteady s h) (hreadings : s.SameReadings t) (hanswers : s.SameAnswers t) : IsSteady t h := by
  obtain ⟨v, hv⟩ := steady
  refine ⟨v, fun asked => ?_⟩
  rw [hreadings.gauge_get h, hanswers.answers]
  exact hv asked

theorem later (steady : IsSteady s h) (hlater : s.Later t) : IsSteady t h :=
  steady.of_same hlater.sameReadings hlater.answers

theorem panic?_eq_none (steady : IsSteady s h) : Metric.panic? s ⟨.gauge, h⟩ = none := by
  obtain ⟨v, hv⟩ := steady
  simp only [Metric.panic?, answer, hv]

end Gauge.IsSteady

/-- An action that ends as before when it is done again in a store later than the one that it left, and then does not
change any object. -/
structure Action.Repeats {α : Type} (action : Action Store α) (s : Store) : Prop where
  later : s.Later (action s).state
  result_eq {t : Store} : (action s).state.Later t → (action t).result = (action s).result
  unmoved {t : Store} : (action s).state.Later t → t.Unmoved (action t).state

namespace Action.Repeats

variable {α β : Type} {action : Action Store α} {s : Store}

theorem of_still (hstate : ∀ t, (action t).state = t)
    (hresult : ∀ {t}, s.Later t → (action t).result = (action s).result) : action.Repeats s where
  later := by
    rw [hstate]
    exact .refl s
  result_eq {t} h := by
    rw [hstate] at h
    exact hresult h
  unmoved {t} _ := by
    rw [hstate]
    exact ⟨rfl, fun _ => rfl, .refl t⟩

theorem of_stopped {fault : Fault} (h : ∀ {t}, s.Later t → action t = ⟨.error fault, t, []⟩) : action.Repeats s where
  later := by
    rw [h (.refl s)]
    exact .refl s
  result_eq {t} hlater := by
    rw [h (.refl s)] at hlater ⊢
    rw [h hlater]
  unmoved {t} hlater := by
    rw [h (.refl s)] at hlater
    rw [h hlater]
    exact ⟨rfl, fun _ => rfl, .refl t⟩

theorem pure (a : α) : (Pure.pure a : Action Store α).Repeats s := of_still (fun _ => rfl) fun _ => rfl

theorem bind (h : action.Repeats s) {next : α → Action Store β}
    (hnext : ∀ a, (action s).result = .ok a → (next a).Repeats (action s).state) : (action >>= next).Repeats s := by
  cases hfirst : (action s).result with
  | error fault =>
    have hagain {t : Store} (hlater : (action s).state.Later t) : (action t).result = .error fault :=
      (h.result_eq hlater).trans hfirst
    constructor
    · rw [bind_of_error hfirst]
      exact h.later
    · intro t hlater
      rw [bind_of_error hfirst] at hlater ⊢
      rw [bind_of_error (hagain hlater)]
    · intro t hlater
      rw [bind_of_error hfirst] at hlater
      rw [bind_of_error (hagain hlater)]
      exact h.unmoved hlater
  | ok a =>
    have hnext := hnext a hfirst
    -- A store later than the one left at the end is later than the one left half-way too.
    have hagain {t : Store} (hlater : (next a (action s).state).state.Later t) :
        (action t).result = .ok a ∧ t.Unmoved (action t).state := by
      have hhalf := hnext.later.trans hlater
      exact ⟨(h.result_eq hhalf).trans hfirst, h.unmoved hhalf⟩
    constructor
    · rw [bind_of_ok hfirst]
      exact h.later.trans hnext.later
    · intro t hlater
      rw [bind_of_ok hfirst] at hlater ⊢
      obtain ⟨hresult, hunmoved⟩ := hagain hlater
      rw [bind_of_ok hresult]
      exact hnext.result_eq (hlater.trans hunmoved.later)
    · intro t hlater
      rw [bind_of_ok hfirst] at hlater
      obtain ⟨hresult, hunmoved⟩ := hagain hlater
      have hrest := hnext.unmoved (hlater.trans hunmoved.later)
      rw [bind_of_ok hresult]
      exact ⟨hrest.clock.trans hunmoved.clock, fun kind => (hrest.objects kind).trans (hunmoved.objects kind),
        IsTrans.trans _ _ _ hunmoved.answers hrest.answers⟩

theorem get_bind {next : Store → Action Store α} (hnext : ∀ {t}, s.Later t → next t = next s)
    (h : (next s).Repeats s) : (Action.get >>= next).Repeats s := by
  have hget (t : Store) : (Action.get t).result = .ok t := rfl
  constructor
  · rw [bind_of_ok (hget s)]
    exact h.later
  · intro t hlater
    rw [bind_of_ok (hget s)] at hlater
    rw [bind_of_ok (hget s), bind_of_ok (hget t), hnext (h.later.trans hlater)]
    exact h.result_eq hlater
  · intro t hlater
    rw [bind_of_ok (hget s)] at hlater
    rw [bind_of_ok (hget t), hnext (h.later.trans hlater)]
    exact h.unmoved hlater

theorem foldlM {f : β → α → Action Store β} (l : List α) (b : β)
    (h : ∀ b, ∀ a ∈ l, ∀ t, s.Later t → (f b a).Repeats t) : (l.foldlM f b).Repeats s := by
  induction l generalizing b s with
  | nil => exact pure b
  | cons a rest ih =>
    rw [List.foldlM_cons]
    have hfirst := h b a List.mem_cons_self s (.refl s)
    refine hfirst.bind fun b' _ => ih b' ?_
    intro b'' a' ha' t ht
    exact h b'' a' (List.mem_cons_of_mem _ ha') t (hfirst.later.trans ht)

end Action.Repeats

namespace Metered

theorem repeats_hold_bind {α : Type} (metered : Metered) {next : Meter Float → Action Store α} {s : Store}
    (hnext : ∀ {t}, s.Later t → next (metered.get t) = next (metered.get s))
    (h : (next (metered.get s)).Repeats s) : (metered.hold >>= next).Repeats s := by
  have hsame {t : Store} (hlater : s.Later t) := hlater.sameReadings.poisoned_get metered
  cases hpoisoned : (metered.get s).poisoned with
  | true =>
    have hagain {t : Store} (hlater : s.Later t) : (metered.hold >>= next) t = ⟨.error (.panic poison), t, []⟩ :=
      bind_hold_of_poisoned ((hsame hlater).trans hpoisoned) next
    exact .of_stopped hagain
  | false =>
    have hagain {t : Store} (hlater : s.Later t) : (metered.hold >>= next) t = next (metered.get s) t := by
      rw [bind_hold_of_sound ((hsame hlater).trans hpoisoned), hnext hlater]
    constructor
    · rw [hagain (.refl s)]
      exact h.later
    · intro t hlater
      rw [hagain (.refl s)] at hlater ⊢
      rw [hagain (h.later.trans hlater)]
      exact h.result_eq hlater
    · intro t hlater
      rw [hagain (.refl s)] at hlater
      rw [hagain (h.later.trans hlater)]
      exact h.unmoved hlater

theorem repeats_readRate (metered : Metered) (horizon : Horizon) (s : Store) :
    (metered.readRate horizon).Repeats s := by
  cases h : (metered.get s).poisoned with
  | true =>
    exact .of_stopped fun hlater => readRate_of_poisoned ((hlater.sameReadings.poisoned_get metered).trans h) horizon
  | false =>
    have hreadings := (metered.isReading_readRate horizon).keeps s
    have hagain {t : Store} (hlater : s.SameReadings t) : metered.readRate horizon t =
        ⟨.ok ((metered.get t).readRate t.now horizon).1, metered.set t ((metered.get t).tickUpTo t.now), []⟩ :=
      readRate_of_sound ((hlater.poisoned_get metered).trans h) horizon
    constructor
    · rw [hagain (.refl s)]
      cases metered with
      | meter handle => exact .catchUp s handle
      | timer handle => exact .catchUp s handle
    · intro t hlater
      have hkept := hreadings.trans hlater.sameReadings
      rw [hagain (.refl s), hagain hkept, hkept.now, Meter.readRate_of_tickUpTo_eq (hkept.tickUpTo_get metered)]
    · intro t hlater
      have hkept := hreadings.trans hlater.sameReadings
      rw [hagain (.refl s)] at hlater
      rw [hagain hkept]
      cases metered with
      | meter handle => exact Store.Later.unmoved_catchUp (h := handle) hlater
      | timer handle => exact Store.Later.unmoved_catchUp (h := handle) hlater

theorem repeats_meanRate (metered : Metered) (s : Store) : metered.meanRate.Repeats s :=
  .of_still metered.state_meanRate fun hlater => metered.result_meanRate_of_sameReadings hlater.sameReadings

end Metered

theorem Gauge.repeats_read {s : Store} {h : Handle .gauge} (hsteady : IsSteady s h) : (Gauge.read h).Repeats s := by
  have hread {t : Store} (hlater : s.Later t) : Gauge.read h t = ⟨.ok hsteady.choose, asked t h, []⟩ := by
    apply read_of_value
    rw [answer, hlater.sameReadings.gauge_get h, hlater.answers.answers]
    exact hsteady.choose_spec _
  have hunmoved (t : Store) : t.Unmoved (asked t h) := by
    refine ⟨rfl, fun kind => ?_, .asked t h⟩
    cases kind <;> rfl
  constructor
  · rw [hread (.refl s)]
    exact (hunmoved s).later
  · intro t hlater
    rw [hread (.refl s)] at hlater ⊢
    rw [hread ((hunmoved s).later.trans hlater)]
  · intro t hlater
    rw [hread (.refl s)] at hlater
    rw [hread ((hunmoved s).later.trans hlater)]
    exact hunmoved t

namespace Units

theorem repeats_rateFields (units : Units) (metered : Metered) (s : Store) : (units.rateFields metered).Repeats s :=
  (metered.repeats_readRate .m1 s).bind fun _ _ => (metered.repeats_readRate .m5 _).bind fun _ _ =>
    (metered.repeats_readRate .m15 _).bind fun _ _ => (metered.repeats_meanRate _).bind fun _ _ => .pure _

theorem repeats_fields (units : Units) {x : Metric} {s : Store}
    (hsteady : ∀ h, x = ⟨.gauge, h⟩ → Gauge.IsSteady s h) : (units.fields x).Repeats s := by
  obtain ⟨kind, h⟩ := x
  cases kind with
  | gauge => exact (Gauge.repeats_read (hsteady h rfl)).bind fun _ _ => .pure _
  | counter =>
    refine .get_bind (fun hlater => ?_) (.pure _)
    rw [hlater.sameReadings.counter_get h]
  | histogram =>
    refine .get_bind (fun hlater => ?_) (.pure _)
    rw [hlater.sameReadings.histogram_get h]
  | meter =>
    refine Metered.repeats_hold_bind _ (fun {t} hlater => ?_)
      ((units.repeats_rateFields (.meter h) s).bind fun _ _ => .pure _)
    have hcount : (Metered.get t (.meter h)).count = (Metered.get s (.meter h)).count :=
      Option.some.inj (hlater.sameReadings.count? ⟨.meter, h⟩)
    simp only [hcount]
  | timer =>
    refine .get_bind (fun hlater => ?_) ((units.repeats_rateFields (.timer h) s).bind fun _ _ => .pure _)
    simp only [hlater.sameReadings.timer_get h]

end Units

namespace Cycle

variable {decides : String → Kind → Bool} {units : Units} {suppress : Bool} {now : Instant}

theorem judge_of_sameReadings (settings : CycleSettings) (table : IdleTable) {s t : Store} (h : s.SameReadings t)
    (name : String) (x : Metric) : judge settings table t name x = judge settings table s name x := by
  cases hx : x.kind.isMetered with
  | false => rw [judge_of_plain settings table t name hx, judge_of_plain settings table s name hx]
  | true =>
    obtain ⟨count, hcount⟩ := Metric.exists_count hx s
    rw [judge_of_count settings table t name hx ((h.count? x).trans hcount),
      judge_of_count settings table s name hx hcount]

theorem repeats_suppress (c : Cycle) (settings : CycleSettings) (name : String) (x : Metric) (s : Store) :
    (c.suppress settings name x).Repeats s := by
  have hstate (t : Store) : (c.suppress settings name x t).state = t := by
    cases hjudged : judgePanic? c.previous t name x with
    | some payload => rw [suppress_of_panic settings hjudged]
    | none => rw [suppress_of_calm hjudged]
  refine .of_still hstate fun {t} hlater => ?_
  have hsame : judgePanic? c.previous t name x = judgePanic? c.previous s name x :=
    judgePanic?_congr rfl hlater.sameReadings.sameCounts x
  cases hjudged : judgePanic? c.previous s name x with
  | some payload =>
    rw [suppress_of_panic settings hjudged, suppress_of_panic settings (hsame.trans hjudged)]
  | none =>
    rw [suppress_of_calm hjudged, suppress_of_calm (hsame.trans hjudged),
      judge_of_sameReadings settings c.previous hlater.sameReadings]

theorem repeats_visit (c : Cycle) {name : String} {x : Metric} {s : Store}
    (hsteady : ∀ h, x = ⟨.gauge, h⟩ → Gauge.IsSteady s h) :
    (visit ⟨units, suppress, .ofKinds decides⟩ now c (name, x)).Repeats s := by
  refine .get_bind (fun _ => rfl) ?_
  simp only [Filter.ofKinds]
  cases decides name x.kind with
  | false => exact .pure _
  | true =>
    have hsuppress := repeats_suppress c ⟨units, suppress, .ofKinds decides⟩ name x s
    refine hsuppress.bind fun judged _ => ?_
    split
    · exact .pure _
    · refine (units.repeats_fields fun h hx => ?_).bind fun _ _ => .pure _
      exact (hsteady h hx).later hsuppress.later

end Cycle

inductive Metered.Rate
  | average (horizon : Horizon)
  | mean

namespace Metered

def read (metered : Metered) : Rate → Action Store Float
  | .average horizon => metered.readRate horizon
  | .mean => metered.meanRate

def readAll : List (Metered × Rate) → Action Store (List Float)
  | [] => return []
  | (metered, rate) :: rest => do
    let value ← metered.read rate
    return value :: (← readAll rest)

def rateIn (s : Store) (r : Metered × Rate) : Except Fault Float := (r.1.read r.2 s).result

theorem read_ends {s t : Store} (h : s.SameReadings t) (r : Metered × Rate) :
    ∃ u, s.SameReadings u ∧ (r.1.read r.2 t).Ends (rateIn s r) u := by
  obtain ⟨metered, rate⟩ := r
  cases rate with
  | average horizon =>
    exact ⟨_, h.trans ((metered.isReading_readRate horizon).keeps t), metered.result_readRate_of_sameReadings h horizon,
      rfl⟩
  | mean => exact ⟨_, h.trans (metered.isReading_meanRate.keeps t), metered.result_meanRate_of_sameReadings h, rfl⟩

theorem result_readAll {s t : Store} (h : s.SameReadings t) (reads : List (Metered × Rate)) :
    (readAll reads t).result = reads.mapM (rateIn s) := by
  induction reads generalizing t with
  | nil => rfl
  | cons r rest ih =>
    obtain ⟨u, hu, hread⟩ := read_ends h r
    rw [List.mapM_cons]
    cases hrate : rateIn s r with
    | error fault =>
      rw [hrate] at hread
      exact hread.bind_error.1
    | ok value =>
      rw [hrate] at hread
      have hrest := ih hu
      rw [readAll]
      cases hall : rest.mapM (rateIn s) with
      | error fault =>
        rw [hall] at hrest
        exact (hread.bind_ok (.bind_error (.self _ hrest))).1
      | ok values =>
        rw [hall] at hrest
        exact (hread.bind_ok (.bind_ok (.self _ hrest) ⟨rfl, rfl⟩)).1

end Metered

namespace Cycle

/-- Where every gauge gives one and the same value, a cycle that is built again at the same instant ends as it did the
first time, and leaves every object as it was then. Rates that are read before or after it, in whatever order, are those
that each of them gives if it is read alone. -/
theorem building_again_changes_nothing (snapshot : Snapshot) (decides : String → Kind → Bool) (units : Units)
    (suppress : Bool) (previous : IdleTable) (now : Instant) (s : Store)
    (steady : ∀ e ∈ snapshot.gauges.entries, Gauge.IsSteady s e.2) :
    let settings : CycleSettings := ⟨units, suppress, .ofKinds decides⟩
    let first := build snapshot settings previous now s
    let second := build snapshot settings previous now first.state
    second.result = first.result ∧ (∀ kind, second.state.objects kind = first.state.objects kind) ∧
      ((∃ cycle, first.result = .ok cycle) ↔
        ∀ x ∈ scenes snapshot settings previous now s, x.isAdmitted settings = true → x.IsReadable settings) ∧
      ∀ reads : List (Metered × Metered.Rate),
        (Metered.readAll reads s).result = reads.mapM (Metered.rateIn s) ∧
          (Metered.readAll reads first.state).result = reads.mapM (Metered.rateIn s) := by
  intro settings first second
  have hrepeats : (build snapshot settings previous now).Repeats s := by
    apply Action.Repeats.foldlM
    rintro c ⟨name, x⟩ hx t ht
    refine repeats_visit c fun h hgauge => ?_
    subst hgauge
    exact (steady (name, h) (NameMap.get?_eq_some_iff.mp ((snapshot.mem_entries_iff name .gauge h).mp hx))).later ht
  refine ⟨hrepeats.result_eq (.refl _), (hrepeats.unmoved (.refl _)).objects, ?_, fun reads => ⟨?_, ?_⟩⟩
  · refine exists_build_iff.trans (forall₂_congr fun x hx => ?_)
    -- A gauge that is met in the cycle is still as steady as at the beginning.
    have hreadings := keeps_of_mem_scenesFrom
      (keeps_visit_of_fields settings (fun y => (units.isReading_fields y).keeps) now) snapshot.entries { previous } s x hx
    have hanswers := keeps_of_mem_scenesFrom (keeps_visit_of_fields settings units.keepsAnswers_fields now)
      snapshot.entries { previous } s x hx
    have hentry := entry_of_mem_scenesFrom hx
    have hcalm : x.IsCalm settings := by
      refine ⟨_, rfl, fun _ hgauge => ?_⟩
      obtain ⟨table, store, name, kind, h⟩ := x
      subst hgauge
      have hmem := NameMap.get?_eq_some_iff.mp ((snapshot.mem_entries_iff name .gauge h).mp hentry)
      exact ((steady (name, h) hmem).of_same hreadings hanswers).panic?_eq_none
    exact and_iff_right hcalm
  · exact Metered.result_readAll (.refl s) reads
  · exact Metered.result_readAll hrepeats.later.sameReadings reads

theorem building_again_changes_nothing_of_two_names :
    let snapshot : Snapshot := {
      gauges := NameMap.ofList [("depth", ⟨0⟩)]
      meters := NameMap.ofList [("hits", ⟨0⟩), ("alias", ⟨0⟩), ("ahead", ⟨1⟩)]
      timers := NameMap.ofList [("wait", ⟨0⟩)] }
    let decides : String → Kind → Bool := fun name kind => name != "spare" || kind == .meter
    let s : Store := {
      clock := ⟨15000000000⟩
      probes := #[.constant (.integer 4)]
      gauges := #[⟨⟨0⟩⟩]
      meters := #[(Meter.startedAt 0).mark 0 3, (Meter.startedAt 40000000000).mark 40000000000 2]
      timers := #[(Timer.startedAt 0).update 0 (.ofNanos 7)] }
    let previous : IdleTable := ⟨NameMap.ofList [("ahead", 2)]⟩
    let now := Instant.ofEpochNanos 0
    let first := build snapshot ⟨{}, true, .ofKinds decides⟩ previous now s
    let second := build snapshot ⟨{}, true, .ofKinds decides⟩ previous now first.state
    (∀ e ∈ snapshot.gauges.entries, Gauge.IsSteady s e.2) ∧
      (∃ cycle, first.result = .ok cycle ∧ second.result = .ok cycle) ∧
      first.state.meters.map Meter.tickedAt = #[15000000000, 40000000000] ∧
      (∀ kind, second.state.objects kind = first.state.objects kind) := by
  intro snapshot decides s previous now first second
  have hsteady : ∀ e ∈ snapshot.gauges.entries, Gauge.IsSteady s e.2 := by
    intro e he
    cases List.mem_singleton.mp he
    exact ⟨.integer 4, fun _ => rfl⟩
  obtain ⟨hsame, hobjects, -⟩ := building_again_changes_nothing snapshot decides {} true previous now s hsteady
  have hfirst : first.result.toOption.isSome = true := by decide +kernel
  cases hcycle : first.result with
  | error fault =>
    rw [hcycle] at hfirst
    cases hfirst
  | ok cycle => exact ⟨hsteady, ⟨cycle, rfl, hsame.trans hcycle⟩, by decide +kernel, hobjects⟩

theorem builds_nothing_again_past_words :
    let snapshot := Snapshot.insert {} "load" ⟨.meter, ⟨0⟩⟩
    let s : Store := { meters := #[{ Meter.startedAt 0 with count := Int64.maxValue }] }
    (build snapshot { filter := .ofKinds fun _ _ => true } ⟨NameMap.empty.insert "load" Int64.minValue⟩
      (Instant.ofEpochNanos 0) s).result = .error (.panic Word.subtractOverflow) := by
  intro snapshot s
  have hentries : snapshot.entries = [("load", ⟨.meter, ⟨0⟩⟩)] := by decide
  exact (result_build_of_panic hentries (by decide) (Instant.ofEpochNanos 0)).2

end Cycle

end MetricReporting
