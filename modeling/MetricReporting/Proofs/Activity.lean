import MetricReporting.Proofs.Deliveries
import MetricReporting.Proofs.OneName
import MetricReporting.Proofs.Snapshots
import MetricReporting.Proofs.TickHistory

namespace MetricReporting

variable {σ : Type}

inductive Deed (σ : Type)
  | report (now : Instant)
  | client (op : Operation)
  | adjust (change : σ → σ)

namespace Deed

def run [Sender σ] (st : Station σ) : Deed σ → Station σ
  | report now => (Reporter.reportInstruments now st).state
  | client op => (Station.withInstruments op.perform st).state
  | adjust change => { st with reporter := { st.reporter with sender := change st.reporter.sender } }

def growth (x : Metric) : Deed σ → Int64
  | client op => op.growth x
  | _ => 0

def totalGrowth (x : Metric) : List (Deed σ) → Int
  | [] => 0
  | deed :: rest => (deed.growth x).toInt + totalGrowth x rest

theorem totalGrowth_append (x : Metric) (deeds deeds' : List (Deed σ)) :
    totalGrowth x (deeds ++ deeds') = totalGrowth x deeds + totalGrowth x deeds' := by
  induction deeds with
  | nil => exact (Int.zero_add _).symm
  | cons deed rest ih => rw [List.cons_append, totalGrowth, totalGrowth, ih, Int.add_assoc]

def Harmless (v : Sender.View σ) (name : String) (x : Metric) : Deed σ → Prop
  | report _ => True
  | client op => op ≠ .remove name ∧ 0 ≤ op.growth x
  | adjust change => ∀ s, v.Quiet s (change s)

theorem growth_nonneg {v : Sender.View σ} {name : String} {x : Metric} (deed : Deed σ)
    (h : deed.Harmless v name x) : 0 ≤ (deed.growth x).toInt := by
  cases deed with
  | report now => exact Int.le_refl 0
  | client op => exact Int64.le_iff_toInt_le.mp h.2
  | adjust change => exact Int.le_refl 0

theorem totalGrowth_nonneg {v : Sender.View σ} {name : String} {x : Metric} (deeds : List (Deed σ))
    (h : ∀ deed ∈ deeds, deed.Harmless v name x) : 0 ≤ totalGrowth x deeds := by
  induction deeds with
  | nil => exact Int.le_refl 0
  | cons deed rest ih =>
    obtain ⟨hfirst, hrest⟩ := List.forall_mem_cons.mp h
    exact Int.add_nonneg (deed.growth_nonneg hfirst) (ih hrest)

end Deed

def Station.after [Sender σ] (st : Station σ) (deeds : List (Deed σ)) : Station σ := deeds.foldl Deed.run st

/-- A run under suppression that begins with a metric registered under a name that the idle table does not know. The
filter admits the metric whenever it does not panic, and its count stays within a word. -/
structure Watched (v : Sender.View σ) (st : Station σ) (name : String) (x : Metric) (deeds : List (Deed σ)) :
    Prop where
  suppressing : st.reporter.settings.skipIdle = true
  admitted (store : Store) : st.reporter.settings.filter store name x ≠ .ok false
  metered : x.kind.isMetered = true
  present : x.IsIn st.instruments.store
  registered : st.instruments.registry.metrics.get? name = some x
  unknown : st.reporter.previous.get? name = none
  honest : v.Honest st.reporter.sender
  harmless : ∀ deed ∈ deeds, deed.Harmless v name x
  fits (count : Int64) : x.count? st.instruments.store = some count →
    count.toInt + Deed.totalGrowth x deeds ≤ Int64.maxValue.toInt

structure ReportedOnce [Sender σ] (v : Sender.View σ) (st : Station σ) (name : String) (x : Metric)
    (deeds : List (Deed σ)) : Prop where
  ascending : ∃ (points : List Point) (counts : List Int64),
    v.delivered (st.after deeds).reporter.sender = v.delivered st.reporter.sender ++ points ∧
      tally name points = counts.map (fun count => some (.integer count)) ∧ counts.Pairwise (· < ·)
  upToDate (before after : List (Deed σ)) (now : Instant) (outcome : Outcome) :
    deeds = before ++ .report now :: after →
      (Reporter.reportInstruments now (st.after before)).result = .ok outcome → outcome ≠ .discarded →
        ∃ count, x.count? (st.after (before ++ [.report now])).instruments.store = some count ∧
          (tally name (v.delivered (st.after (before ++ [.report now])).reporter.sender)).getLast? =
            some (some (.integer count))

structure Accounted (v : Sender.View σ) (origin : Station σ) (name : String) (x : Metric) (st : Station σ)
    (points : List Point) (counts : List Int64) : Prop where
  settings : st.reporter.settings = origin.reporter.settings
  present : x.IsIn st.instruments.store
  registered : st.instruments.registry.metrics.get? name = some x
  honest : v.Honest st.reporter.sender
  delivered : v.delivered st.reporter.sender = v.delivered origin.reporter.sender ++ points
  counted : tally name points = counts.map (fun count => some (.integer count))
  ascending : counts.Pairwise (· < ·)
  table : st.reporter.previous.get? name = counts.getLast?
  bounded (count : Int64) : x.count? st.instruments.store = some count → ∀ c ∈ counts, c ≤ count

namespace Reporter

theorem reportInstruments_of_poisoned [Sender σ] (st : Station σ) (now : Instant)
    (h : st.instruments.registry.poisoned = true) :
    (reportInstruments now st).Ends (.error (.panic Registry.poison)) st :=
  .bind_error (.on (.bind_error (Registry.metricsByName_of_poisoned st.instruments h)))

theorem reportInstruments_of_snapshot [Sender σ] {st st' : Station σ} {snapshot : Snapshot} {now : Instant}
    {result : Except Fault Outcome}
    (hsnapshot : (Registry.snapshot st.instruments).Ends (.ok snapshot) st.instruments)
    (hreport : (report snapshot now st).Ends result st') : (reportInstruments now st).Ends result st' :=
  .bind_ok (.on hsnapshot) hreport

theorem reportInstruments_of_sound [Sender σ] (st : Station σ) (now : Instant)
    (h : st.instruments.registry.poisoned = false) :
    ∃ snapshot : Snapshot, (∀ e, e ∈ snapshot.entries ↔ st.instruments.registry.metrics.get? e.1 = some e.2) ∧
      ∀ {result s}, (report snapshot now st).Ends result s → (reportInstruments now st).Ends result s := by
  obtain ⟨snapshot, hsnapshot, hmem⟩ := Registry.snapshot_of_sound st.instruments h
  exact ⟨snapshot, hmem, fun hreport => reportInstruments_of_snapshot hsnapshot hreport⟩

end Reporter

theorem lt_of_ascending {counts : List Int64} {count : Int64} (hasc : counts.Pairwise (· < ·))
    (hle : ∀ c ∈ counts, c ≤ count) (hlast : counts.getLast? ≠ some count) : ∀ c ∈ counts, c < count := by
  intro c hc
  rcases List.eq_nil_or_concat counts with rfl | ⟨init, last, rfl⟩
  · cases hc
  · rw [List.concat_eq_append] at hasc hle hlast hc
    have hne : last ≠ count := by
      rintro rfl
      exact hlast List.getLast?_concat
    have hlt : last < count := Int64.lt_of_le_of_ne (hle last (by simp)) hne
    rcases List.mem_append.mp hc with hinit | hself
    · exact Int64.lt_trans ((List.pairwise_append.mp hasc).2.2 c hinit last (by simp)) hlt
    · rw [List.mem_singleton.mp hself]
      exact hlt

namespace Accounted

variable [Sender σ] {v : Sender.View σ} {origin st : Station σ} {name : String} {x : Metric} {points : List Point}
  {counts : List Int64}

omit [Sender σ] in
theorem left (h : Accounted v origin name x st points counts) {sender : σ} {store : Store}
    (honest : v.Honest sender) (same : st.instruments.store.SameCounts store)
    (undelivered : v.delivered sender = v.delivered st.reporter.sender) :
    Accounted v origin name x (st.left sender store) points counts where
  settings := h.settings
  present := same.isIn h.present
  registered := h.registered
  honest := honest
  delivered := undelivered.trans h.delivered
  counted := h.counted
  ascending := h.ascending
  table := h.table
  bounded count hcount := h.bounded count ((same.count x).symm.trans hcount)

omit [Sender σ] in
theorem goneOver (h : Accounted v origin name x st points counts) {sender : σ} {store : Store} {c : Cycle}
    {count : Int64} (honest : v.Honest sender) (same : st.instruments.store.SameCounts store)
    (delivered : v.delivered sender = v.delivered st.reporter.sender ++ c.points)
    (hcount : x.count? st.instruments.store = some count) (htable : c.previous.get? name = some count)
    (htally : tally name c.points =
      if st.reporter.previous.get? name = some count then [] else [some (.integer count)]) :
    ∃ counts, Accounted v origin name x ((st.left sender store).goneOver c.previous) (points ++ c.points) counts ∧
      counts.getLast? = some count := by
  have hdelivered : v.delivered sender = v.delivered origin.reporter.sender ++ (points ++ c.points) := by
    rw [delivered, h.delivered, List.append_assoc]
  by_cases hlast : counts.getLast? = some count
  · rw [if_pos (h.table.trans hlast)] at htally
    refine ⟨counts, ?_, hlast⟩
    constructor
    · exact h.settings
    · exact same.isIn h.present
    · exact h.registered
    · exact honest
    · exact hdelivered
    · rw [tally_append, htally, List.append_nil]
      exact h.counted
    · exact h.ascending
    · exact htable.trans hlast.symm
    · intro count' hcount'
      exact h.bounded count' ((same.count x).symm.trans hcount')
  · -- The table has the last count delivered, so this one is new, and greater than all before it.
    have hlt := lt_of_ascending h.ascending (h.bounded count hcount) hlast
    rw [if_neg (fun hsame => hlast (h.table.symm.trans hsame))] at htally
    refine ⟨counts ++ [count], ?_, List.getLast?_concat⟩
    constructor
    · exact h.settings
    · exact same.isIn h.present
    · exact h.registered
    · exact honest
    · exact hdelivered
    · rw [tally_append, htally, h.counted, List.map_append]
      rfl
    · rw [List.pairwise_append]
      refine ⟨h.ascending, List.pairwise_singleton _ _, ?_⟩
      intro c hc last hlast
      rw [List.mem_singleton.mp hlast]
      exact hlt c hc
    · exact htable.trans List.getLast?_concat.symm
    · intro count' hcount' c hc
      have hsame : count' = count := Option.some.inj (((same.count x).symm.trans hcount').symm.trans hcount)
      rw [hsame]
      rcases List.mem_append.mp hc with hold | hnew
      · exact Int64.le_of_lt (hlt c hold)
      · exact Int64.le_of_eq (List.mem_singleton.mp hnew)

theorem report (tracks : v.Tracks) (h : Accounted v origin name x st points counts)
    (suppressing : origin.reporter.settings.skipIdle = true)
    (admitted : ∀ store, origin.reporter.settings.filter store name x ≠ .ok false)
    (metered : x.kind.isMetered = true)
    (now : Instant) :
    ∃ points counts, Accounted v origin name x (Deed.run st (.report now)) points counts ∧
      x.count? (Deed.run st (.report now)).instruments.store = x.count? st.instruments.store ∧
      ∀ outcome, (Reporter.reportInstruments now st).result = .ok outcome → outcome ≠ .discarded →
        x.count? (Deed.run st (.report now)).instruments.store = counts.getLast? := by
  cases hsound : st.instruments.registry.poisoned with
  | true =>
    obtain ⟨hresult, hstate⟩ := Reporter.reportInstruments_of_poisoned st now hsound
    refine ⟨points, counts, ?_, ?_, ?_⟩
    · rw [Deed.run, hstate]
      exact h
    · rw [Deed.run, hstate]
    · intro outcome hok
      cases hresult.symm.trans hok
  | false =>
    obtain ⟨snapshot, hmem, hends⟩ := Reporter.reportInstruments_of_sound st now hsound
    obtain ⟨count, hcount⟩ := Metric.exists_count metered st.instruments.store
    obtain ⟨sender, store, honest, same, ⟨hreport, hdelivered⟩ | ⟨c, outcome, hbuilt, -, hreport, hdelivered⟩⟩ :=
      Reporter.report_delivers tracks st h.honest snapshot now
    · obtain ⟨hresult, hstate⟩ := hends hreport
      refine ⟨points, counts, ?_, ?_, ?_⟩
      · rw [Deed.run, hstate]
        exact h.left honest same hdelivered
      · rw [Deed.run, hstate]
        exact same.count x
      · intro outcome hok hne
        exact absurd (Except.ok.inj (hresult.symm.trans hok)).symm hne
    · obtain ⟨hresult, hstate⟩ := hends hreport
      rw [← h.settings] at suppressing admitted
      have hentry : (name, x) ∈ snapshot.entries := (hmem (name, x)).mpr h.registered
      have hunique : ∀ e ∈ snapshot.entries, e.1 = name → e.2 = x := by
        rintro e he rfl
        exact Option.some.inj (((hmem e).mp he).symm.trans h.registered)
      have hle : ∀ stored, st.reporter.previous.get? name = some stored → stored ≤ count := by
        intro stored hstored
        exact h.bounded count hcount stored (List.mem_of_getLast? (h.table.symm.trans hstored))
      obtain ⟨htable, htally⟩ :=
        Cycle.build_suppressed suppressing metered admitted hentry hunique hcount hle hbuilt
      obtain ⟨counts', haccounted, hlast⟩ := h.goneOver honest same hdelivered hcount htable htally
      refine ⟨points ++ c.points, counts', ?_, ?_, ?_⟩
      · rw [Deed.run, hstate]
        exact haccounted
      · rw [Deed.run, hstate]
        exact same.count x
      · intro _ _ _
        rw [Deed.run, hstate, hlast]
        exact (same.count x).trans hcount

theorem client (h : Accounted v origin name x st points counts) (op : Operation) (hname : op ≠ .remove name)
    (hup : 0 ≤ op.growth x)
    (fits : ∀ count, x.count? st.instruments.store = some count →
      count.toInt + (op.growth x).toInt ≤ Int64.maxValue.toInt) :
    Accounted v origin name x (Deed.run st (.client op)) points counts where
  settings := h.settings
  present := op.isIn_perform st.instruments x h.present
  registered := op.registered_perform st.instruments name x h.registered hname
  honest := h.honest
  delivered := h.delivered
  counted := h.counted
  ascending := h.ascending
  table := h.table
  bounded count' hcount' c hc := by
    have hperform := op.count?_perform st.instruments x h.present
    obtain ⟨count, hcount, rfl⟩ := Option.map_eq_some_iff.mp (hperform.symm.trans hcount')
    have hle := Int64.le_iff_toInt_le.mp (h.bounded count hcount c hc)
    have hup' : 0 ≤ (op.growth x).toInt := Int64.le_iff_toInt_le.mp hup
    rw [Int64.le_iff_toInt_le, toInt_add_of_le count _ (fits count hcount) hup]
    omega

omit [Sender σ] in
theorem adjust (h : Accounted v origin name x st points counts) {sender : σ}
    (quiet : v.Quiet st.reporter.sender sender) :
    Accounted v origin name x (st.left sender st.instruments.store) points counts :=
  h.left (quiet.honest h.honest) (.refl _) quiet.delivered

theorem run (tracks : v.Tracks) (h : Accounted v origin name x st points counts)
    (suppressing : origin.reporter.settings.skipIdle = true)
    (admitted : ∀ store, origin.reporter.settings.filter store name x ≠ .ok false)
    (metered : x.kind.isMetered = true)
    (deed : Deed σ) (harmless : deed.Harmless v name x)
    (fits : ∀ count, x.count? st.instruments.store = some count →
      count.toInt + (deed.growth x).toInt ≤ Int64.maxValue.toInt) :
    (∃ points counts, Accounted v origin name x (deed.run st) points counts) ∧
      x.count? (deed.run st).instruments.store = (x.count? st.instruments.store).map (· + deed.growth x) := by
  cases deed with
  | report now =>
    obtain ⟨points', counts', haccounted, hcount, -⟩ := h.report tracks suppressing admitted metered now
    refine ⟨⟨points', counts', haccounted⟩, ?_⟩
    rw [hcount]
    simp [Deed.growth]
  | client op =>
    obtain ⟨hname, hup⟩ := harmless
    exact ⟨⟨points, counts, h.client op hname hup fits⟩, op.count?_perform st.instruments x h.present⟩
  | adjust change =>
    refine ⟨⟨points, counts, h.adjust (harmless st.reporter.sender)⟩, ?_⟩
    simp [Deed.run, Deed.growth]

theorem after (tracks : v.Tracks) (suppressing : origin.reporter.settings.skipIdle = true)
    (admitted : ∀ store, origin.reporter.settings.filter store name x ≠ .ok false)
    (metered : x.kind.isMetered = true)
    (deeds : List (Deed σ)) (h : Accounted v origin name x st points counts)
    (harmless : ∀ deed ∈ deeds, deed.Harmless v name x)
    (fits : ∀ count, x.count? st.instruments.store = some count →
      count.toInt + Deed.totalGrowth x deeds ≤ Int64.maxValue.toInt) :
    ∃ points counts, Accounted v origin name x (st.after deeds) points counts := by
  -- On the deeds to come: what they add still fits once the first of them has added its part.
  induction deeds generalizing st points counts with
  | nil => exact ⟨points, counts, h⟩
  | cons deed rest ih =>
    obtain ⟨hfirst, hrest⟩ := List.forall_mem_cons.mp harmless
    have hup := deed.growth_nonneg hfirst
    have hups := Deed.totalGrowth_nonneg rest hrest
    have hfits : ∀ count, x.count? st.instruments.store = some count →
        count.toInt + (deed.growth x).toInt ≤ Int64.maxValue.toInt := by
      intro count hcount
      have hsum := fits count hcount
      rw [Deed.totalGrowth] at hsum
      omega
    obtain ⟨⟨points', counts', haccounted⟩, hcount⟩ := h.run tracks suppressing admitted metered deed hfirst hfits
    refine ih haccounted hrest ?_
    intro count' hcount'
    obtain ⟨count, hbefore, rfl⟩ := Option.map_eq_some_iff.mp (hcount.symm.trans hcount')
    have hsum := fits count hbefore
    rw [Deed.totalGrowth] at hsum
    rw [toInt_add_of_le count _ (hfits count hbefore) (Int64.le_iff_toInt_le.mpr hup)]
    omega

end Accounted

namespace Watched

variable [Sender σ] {v : Sender.View σ} {st : Station σ} {name : String} {x : Metric} {deeds : List (Deed σ)}

omit [Sender σ] in
theorem accounted (h : Watched v st name x deeds) : Accounted v st name x st [] [] where
  settings := rfl
  present := h.present
  registered := h.registered
  honest := h.honest
  delivered := (List.append_nil _).symm
  counted := rfl
  ascending := .nil
  table := h.unknown
  bounded _ _ := nofun

omit [Sender σ] in
theorem of_append {before after : List (Deed σ)} (h : Watched v st name x (before ++ after)) :
    Watched v st name x before :=
  { h with
    harmless := fun deed hdeed => h.harmless deed (List.mem_append_left _ hdeed)
    fits := by
      intro count hcount
      have hsum := h.fits count hcount
      have hups := Deed.totalGrowth_nonneg after (fun deed hdeed => h.harmless deed (List.mem_append_right _ hdeed))
      rw [Deed.totalGrowth_append] at hsum
      omega }

theorem accounted_after (tracks : v.Tracks) (h : Watched v st name x deeds) :
    ∃ points counts, Accounted v st name x (st.after deeds) points counts :=
  Accounted.after tracks h.suppressing h.admitted h.metered deeds h.accounted h.harmless h.fits

theorem reportedOnce (tracks : v.Tracks) (h : Watched v st name x deeds) : ReportedOnce v st name x deeds := by
  constructor
  · obtain ⟨points, counts, haccounted⟩ := h.accounted_after tracks
    exact ⟨points, counts, haccounted.delivered, haccounted.counted, haccounted.ascending⟩
  · rintro before after now outcome rfl hresult hne
    obtain ⟨points, counts, haccounted⟩ := h.of_append.accounted_after tracks
    obtain ⟨points', counts', hreport, -, hlast⟩ :=
      haccounted.report tracks h.suppressing h.admitted h.metered now
    obtain ⟨count, hcount⟩ := Metric.exists_count h.metered (Deed.run (st.after before) (.report now)).instruments.store
    obtain ⟨earlier, rfl⟩ := List.getLast?_eq_some_iff.mp ((hlast outcome hresult hne).symm.trans hcount)
    have hafter : st.after (before ++ [.report now]) = Deed.run (st.after before) (.report now) :=
      List.foldl_append.trans rfl
    rw [hafter]
    refine ⟨count, hcount, ?_⟩
    rw [hreport.delivered, tally_append, hreport.counted, List.map_append, ← List.append_assoc]
    exact List.getLast?_concat

end Watched

/-- No activity is lost and none is repeated, over a sender that keeps its batches and over one that records its
calls, unless it is told whether it has data. -/
theorem activity_is_reported_once :
    (∀ (st : Station Sender.Memory) (name : String) (x : Metric) (deeds : List (Deed Sender.Memory)),
      Watched Sender.Memory.view st name x deeds → ReportedOnce Sender.Memory.view st name x deeds) ∧
    ∀ (st : Station Sender.Recording) (name : String) (x : Metric) (deeds : List (Deed Sender.Recording)),
      Watched Sender.Recording.view st name x deeds → ReportedOnce Sender.Recording.view st name x deeds :=
  ⟨fun _ _ _ _ h => h.reportedOnce Sender.Memory.view_tracks,
    fun _ _ _ _ h => h.reportedOnce Sender.Recording.view_tracks⟩

theorem activity_is_reported_once_after_failures :
    let x : Metric := ⟨.meter, ⟨0⟩⟩
    let instruments : Instruments := {
      store := { probes := #[.constant (.integer 5)], gauges := #[⟨⟨0⟩⟩], meters := #[Meter.startedAt 0] }
      registry := { metrics := (NameMap.empty.insert "depth" ⟨.gauge, ⟨0⟩⟩).insert "errors" x } }
    let now := Instant.ofEpochNanos 0
    let recording : Station Sender.Recording :=
      { reporter := { sender := {}, settings := { skipIdle := true } }, instruments }
    let troubles : List (Deed Sender.Recording) :=
      [.report now, .client (.change (.mark ⟨0⟩ 2)), .adjust fun s => { s with writeFails := true }, .report now,
        .adjust fun s => { s with writeFails := false },
        .client (.change (.setProbe ⟨0⟩ ⟨fun _ => .panic .wordless, 0⟩)), .report now,
        .client (.change (.setProbe ⟨0⟩ (.constant (.integer 5)))), .report now, .report now]
    let memory : Station Sender.Memory :=
      { reporter := { sender := {}, settings := { skipIdle := true } }, instruments }
    ReportedOnce Sender.Recording.view recording "errors" x troubles ∧
      ReportedOnce Sender.Memory.view memory "errors" x
        [.report now, .client (.change (.mark ⟨0⟩ 2)), .client (.register "faults" x), .report now] := by
  intro x instruments now recording troubles memory
  refine ⟨activity_is_reported_once.2 recording "errors" x troubles ?_,
    activity_is_reported_once.1 memory "errors" x _ ?_⟩
  · constructor
    · rfl
    · exact fun store => nofun
    · rfl
    · exact Nat.zero_lt_one
    · rfl
    · rfl
    · rfl
    · simp only [troubles, List.forall_mem_cons, Deed.Harmless]
      exact ⟨trivial, ⟨nofun, by decide⟩, fun s => ⟨rfl, id⟩, trivial, fun s => ⟨rfl, id⟩, ⟨nofun, by decide⟩,
        trivial, ⟨nofun, by decide⟩, trivial, trivial, nofun⟩
    · rintro count ⟨rfl⟩
      decide
  · constructor
    · rfl
    · exact fun store => nofun
    · rfl
    · exact Nat.zero_lt_one
    · rfl
    · rfl
    · trivial
    · simp only [List.forall_mem_cons, Deed.Harmless]
      exact ⟨trivial, ⟨nofun, by decide⟩, ⟨nofun, by decide⟩, trivial, nofun⟩
    · rintro count ⟨rfl⟩
      decide

end MetricReporting
