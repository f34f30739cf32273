import MetricReporting.Proofs.Lines
import MetricReporting.Proofs.Patterns
import MetricReporting.Proofs.Periods
import MetricReporting.Proofs.TrafficReports

namespace MetricReporting

namespace Sender.JsonLines

variable [FloatFormat]

def textOf (points : List Point) : String := String.join (points.map fun p => p.json ++ "\n")

theorem pieces_textOf [LawfulFloatFormat] (points : List Point) :
    Text.pieces '\n' (textOf points).toList = points.map (·.json.toList) ++ [[]] := by
  have htext : (textOf points).toList = (points.map (·.json.toList)).flatMap (· ++ ['\n']) := by
    simp [textOf, String.toList_join, List.flatMap_map]
  rw [htext]
  apply Text.pieces_of_ended
  simp [Point.newline_not_mem_json]

theorem deliver_prints (c : Cycle) {s : JsonLines} (unflushed : s.pending = []) (unbounded : s.out.room = none)
    (flushes : s.out.flushReason = none) :
    ∃ outcome, (Reporter.deliver c s).Ends (.ok outcome)
      (s.printed (textOf (c.points.map (outgoing s.tags)))) := by
  have hcleared : { s with pending := [] } = s := by rw [← unflushed]
  have happends := appends_end c.points s
  rw [unflushed, List.nil_append] at happends
  by_cases hnone : c.points = []
  · have hempty : s.printed (textOf (c.points.map (outgoing s.tags))) = { s with pending := c.points } := by
      rw [hnone, hcleared]
      exact printed_empty s
    have hasked : (Sender.hasData { s with pending := c.points }).Ends (.ok false) { s with pending := c.points } := by
      rw [hnone]
      exact ⟨rfl, rfl⟩
    rw [hempty]
    exact ⟨.nothingToWrite c.skipped, .bind_ok happends (.bind_ok hasked ⟨rfl, rfl⟩)⟩
  · have hlines : String.join (c.points.map (line s.tags)) = textOf (c.points.map (outgoing s.tags)) := by
      rw [textOf, List.map_map]
      rfl
    have hasked : (Sender.hasData { s with pending := c.points }).Ends (.ok true) { s with pending := c.points } := by
      refine ⟨congrArg Except.ok ?_, rfl⟩
      simpa using hnone
    have hwrite := write_ends (s := { s with pending := c.points }) unbounded flushes
    rw [hlines, hcleared] at hwrite
    exact ⟨.written c.points.length c.skipped, .bind_ok happends (.bind_ok hasked (.bind_ok hwrite ⟨rfl, rfl⟩))⟩

end Sender.JsonLines

open Sender.JsonLines

theorem Reporter.report_prints [FloatFormat] (st : Station Sender.JsonLines)
    (unbounded : st.reporter.sender.out.room = none) (flushes : st.reporter.sender.out.flushReason = none)
    {snapshot : Snapshot} {now : Instant} {c : Cycle} {store : Store} (hbuilt : (st.built snapshot now).Ends (.ok c) store) :
    ∃ outcome, (report snapshot now st).Ends (.ok outcome)
      ((st.left
        (({ st.reporter.sender with pending := [] } : Sender.JsonLines).printed
          (textOf (c.points.map (outgoing st.reporter.sender.tags)))) store).goneOver c.previous) := by
  obtain ⟨hok, rfl⟩ := hbuilt
  obtain ⟨outcome, hdeliver⟩ := deliver_prints c (s := { st.reporter.sender with pending := [] }) rfl unbounded flushes
  exact ⟨outcome, report_of_delivered rfl hok hdeliver⟩

namespace CommandLine.Service

structure Console where
  rounds : Nat → Round
  waited : Nat := 0
  printed : List ByteArray := []

namespace Console

def wait (_ : Service) : StateM Console Round :=
  modifyGet fun console => (console.rounds console.waited, { console with waited := console.waited + 1 })

def print (service : Service) : StateM Console Service :=
  modifyGet fun console =>
    (service.takeOutput.2, { console with printed := console.printed ++ [service.takeOutput.1] })

def coming (console : Console) (n : Nat) : List Round := (List.range' console.waited n).map console.rounds

def goneOn (console : Console) (output : ByteArray) : Console :=
  { console with waited := console.waited + 1, printed := console.printed ++ [output] }

end Console

theorem run_serve_succ [FloatFormat] (n : Nat) (service : Service) (console : Console) :
    (service.serve Console.wait Console.print (n + 1)).run console =
      ((service.run (console.rounds console.waited)).takeOutput.2.serve Console.wait Console.print n).run
        (console.goneOn (service.run (console.rounds console.waited)).takeOutput.1) := rfl

theorem exists_rounds [FloatFormat] (service : Service) (count : Nat) :
    ∃ rounds : List Round, service.cyclesFrom count = service.through rounds ∧
      rounds.map Round.now = (List.range count).map fun k => (service.ticker.later k).due := by
  induction count generalizing service with
  | zero => exact ⟨[], rfl, rfl⟩
  | succ n ih =>
    let next := service.nextRound (.ofEpochNanos service.ticker.due)
    obtain ⟨rounds, hcycles, hdue⟩ := ih (service.run next)
    refine ⟨next :: rounds, hcycles, ?_⟩
    rw [List.map_cons, hdue, ticker_run, List.range_succ_eq_map, List.map_cons, List.map_map, Ticker.later_zero]
    refine congrArg (next.now :: ·) (List.map_congr_left fun k _ => ?_)
    rw [Ticker.later_later, Nat.add_comm]
    rfl

structure Line (tags : Tags) (n : Nat) (time : Instant) (kind : Kind) (q : Point) : Prop where
  measurement : q.measurement = Traffic.nameOf kind
  tags : q.tags = if tags.isEmpty then none else some tags
  timestamp : q.timestamp = toString time.millis
  value : ∃ v : Int64, q.field? (Traffic.fieldOf kind) = some (.integer v) ∧ v.toInt = Traffic.shownAfter n kind

/-- The groups of lines that some rounds print, by the number of requests before them and at the cycle before. -/
inductive Prints (tags : Tags) (admits : String → Bool) (suppress : Bool) :
    Option Nat → Nat → List Round → List (List Point) → Prop
  | nil {before? : Option Nat} {n : Nat} : Prints tags admits suppress before? n [] []
  | cons {before? : Option Nat} {n : Nat} {r : Round} {rest : List Round} {group : List Point}
      {groups : List (List Point)}
      (lines : List.Forall₂ (Line tags (n + r.requests.length) r.time)
        (Traffic.reported admits suppress before? (n + r.requests.length) Kind.all) group)
      (later : Prints tags admits suppress (some (n + r.requests.length)) (n + r.requests.length) rest groups) :
      Prints tags admits suppress before? n (r :: rest) (group :: groups)

theorem Prints.length_eq {tags : Tags} {admits : String → Bool} {suppress : Bool} {before? : Option Nat} {n : Nat}
    {rounds : List Round} {groups : List (List Point)} (h : Prints tags admits suppress before? n rounds groups) :
    groups.length = rounds.length := by
  induction h with
  | nil => rfl
  | cons _ _ ih => rw [List.length_cons, List.length_cons, ih]

theorem line_of_tells {tags : Tags} {n : Nat} (hn : n < 2 ^ 63) {time : Instant} {kind : Kind} {p : Point}
    (h : Traffic.Tells n time kind p) : Line tags n time kind (outgoing tags p) where
  measurement := h.measurement
  tags := by
    rw [outgoing, h.tags]
    rfl
  timestamp := h.timestamp
  value := by
    refine ⟨_, ?_, Int64.toInt_ofNat_of_lt (Nat.lt_of_le_of_lt (Traffic.shownAfter_le n kind) hn)⟩
    exact NameMap.get?_filter_eq_some_iff.mpr ⟨h.value, rfl⟩

structure Stands (plan : ReporterPlan) (admits : String → Bool) (before? : Option Nat) (n : Nat) (service : Service) :
    Prop where
  traffic : service.traffic = Traffic.first
  requests : service.requests = n
  serves : Traffic.Serves n service.station.instruments.store
  registry : service.station.instruments.registry = (Traffic.install {}).state.registry
  settings : service.station.reporter.settings = plan.settings
  tags : service.station.reporter.sender.tags = plan.tags
  unbounded : service.station.reporter.sender.out.room = none
  flushes : service.station.reporter.sender.out.flushReason = none
  earlier : ∀ before ∈ before?, before ≤ n
  table (kind : Kind) : Traffic.IsTabled admits plan.settings.skipIdle before? service.station.reporter.previous kind

variable {plan : ReporterPlan} {admits : String → Bool} {before? : Option Nat} {n : Nat} {service : Service}

theorem stands_planned (ticker : Ticker) : Stands plan admits none 0 (planned plan ticker) where
  traffic := rfl
  requests := rfl
  serves := Traffic.serves_install
  registry := rfl
  settings := rfl
  tags := rfl
  unbounded := rfl
  flushes := rfl
  earlier := nofun
  table _ _ _ := by
    split <;> rfl

theorem Stands.stepAt (h : Stands plan admits before? n service) (hn : n + 1 < 2 ^ 63) (now : Nat) :
    Stands plan admits before? (n + 1) (service.stepAt now) where
  traffic := h.traffic
  requests := congrArg (· + 1) h.requests
  serves := by
    obtain ⟨_, ⟨-, rfl⟩, hserves⟩ := Traffic.request_ends (h.serves.setClock ⟨now.toUInt64⟩) hn
    rw [← h.traffic] at hserves
    have hrequests := h.requests
    subst hrequests
    exact hserves
  registry := h.registry
  settings := h.settings
  tags := h.tags
  unbounded := h.unbounded
  flushes := h.flushes
  earlier before hbefore := Nat.le_succ_of_le (h.earlier before hbefore)
  table := h.table

theorem Stands.steps (h : Stands plan admits before? n service) (instants : List Nat)
    (hn : n + instants.length < 2 ^ 63) :
    Stands plan admits before? (n + instants.length) (instants.foldl Service.stepAt service) ∧
      (instants.foldl Service.stepAt service).takeOutput.1 = service.takeOutput.1 := by
  induction instants generalizing n service with
  | nil => exact ⟨h, rfl⟩
  | cons now rest ih =>
    rw [List.length_cons, Nat.add_comm rest.length, ← Nat.add_assoc] at hn ⊢
    exact ih (h.stepAt (by omega) now) hn

def stationAt (service : Service) (now : Nat) : Station Sender.JsonLines :=
  { service.station with instruments := { service.station.instruments with
    store := { service.station.instruments.store with clock := ⟨now.toUInt64⟩ } } }

theorem reportAt_of_ends [FloatFormat] {now : Nat} {time : Instant} {outcome : Outcome} {st : Station Sender.JsonLines}
    (h : (Reporter.reportInstruments time (service.stationAt now)).Ends (.ok outcome) st) :
    service.reportAt now time = { service with station := st, ticker := service.ticker.later 1 } := by
  have hends : ((do let _ ← Reporter.reportInstruments time : Action (Station Sender.JsonLines) Unit)
      (service.stationAt now)).Ends (.ok ()) st := .bind_ok h ⟨rfl, rfl⟩
  obtain ⟨-, rfl⟩ := hends
  rfl

theorem Stands.reportAt [FloatFormat] (h : Stands plan admits before? n service)
    (hfilter : plan.settings.filter = .ofNames admits) (hn : n < 2 ^ 63) (now : Nat) (time : Instant) :
    Stands plan admits (some n) n (service.reportAt now time) ∧
      ∃ group : List Point,
        List.Forall₂ (Line plan.tags n time) (Traffic.reported admits plan.settings.skipIdle before? n Kind.all) group ∧
          (service.reportAt now time).takeOutput.1 =
            service.takeOutput.1 ++ (textOf group).toUTF8 := by
  have hserves : Traffic.Serves n (service.stationAt now).instruments.store := h.serves.setClock ⟨now.toUInt64⟩
  obtain ⟨snapshot, hsnapshot, hentries⟩ :=
    Traffic.snapshot_installed (i := (service.stationAt now).instruments) h.registry
  obtain ⟨c, store, hbuild, hserves', htells, htable⟩ :=
    Traffic.build_served h.earlier hn time hentries hfilter hserves h.table
  rw [← h.settings] at hbuild
  obtain ⟨outcome, hreport⟩ := Reporter.report_prints (service.stationAt now) h.unbounded h.flushes hbuild
  rw [reportAt_of_ends (Reporter.reportInstruments_of_snapshot hsnapshot hreport)]
  refine ⟨{ h with serves := hserves', earlier := ?_, table := htable }, _, ?_, rfl⟩
  · intro before hbefore
    cases hbefore
    exact Nat.le_refl n
  · have htags : (service.stationAt now).reporter.sender.tags = plan.tags := h.tags
    rw [htags, List.forall₂_map_right_iff]
    exact htells.imp fun _ _ => line_of_tells hn

theorem Stands.run [FloatFormat] (h : Stands plan admits before? n service)
    (hfilter : plan.settings.filter = .ofNames admits) (r : Round) (hn : n + r.requests.length < 2 ^ 63) :
    Stands plan admits (some (n + r.requests.length)) (n + r.requests.length) (service.run r) ∧
      ∃ group : List Point,
        List.Forall₂ (Line plan.tags (n + r.requests.length) r.time)
          (Traffic.reported admits plan.settings.skipIdle before? (n + r.requests.length) Kind.all) group ∧
        (service.run r).takeOutput.1 = service.takeOutput.1 ++ (textOf group).toUTF8 := by
  obtain ⟨hasked, hquiet⟩ := h.steps r.requests hn
  rw [← hquiet]
  exact hasked.reportAt hfilter hn r.now r.time

def requestsIn (rounds : List Round) : Nat := (rounds.map fun r => r.requests.length).sum

theorem Stands.taken (h : Stands plan admits before? n service) : Stands plan admits before? n service.takeOutput.2 :=
  { h with }

theorem Stands.serve [FloatFormat] (h : Stands plan admits before? n service)
    (hfilter : plan.settings.filter = .ofNames admits) (hempty : service.takeOutput.1 = ByteArray.empty)
    (cycles : Nat) (console : Console) (hn : n + requestsIn (console.coming cycles) < 2 ^ 63) :
    ∃ groups : List (List Point),
      Prints plan.tags admits plan.settings.skipIdle before? n (console.coming cycles) groups ∧
        ((service.serve Console.wait Console.print cycles).run console).2.printed =
          console.printed ++ groups.map fun group => (textOf group).toUTF8 := by
  induction cycles generalizing before? n service console with
  | zero => exact ⟨[], .nil, (List.append_nil _).symm⟩
  | succ cycles ih =>
    let r := console.rounds console.waited
    let next := console.goneOn (service.run r).takeOutput.1
    have hcoming : console.coming (cycles + 1) = r :: next.coming cycles := rfl
    have hcount : requestsIn (r :: next.coming cycles) = r.requests.length + requestsIn (next.coming cycles) := rfl
    rw [hcoming] at hn ⊢
    obtain ⟨hstands, group, hlines, houtput⟩ := h.run hfilter r (by omega)
    obtain ⟨groups, hprints, hmore⟩ := ih hstands.taken rfl next (by omega)
    refine ⟨group :: groups, .cons hlines hprints, ?_⟩
    rw [hempty, ByteArray.empty_append] at houtput
    rw [run_serve_succ]
    refine hmore.trans ?_
    rw [show next.printed = console.printed ++ [(service.run r).takeOutput.1] from rfl, houtput, List.append_assoc]
    rfl

theorem lt_of_no_overflow {n : Nat} (h : ∀ i < n, i * 7919 < 2 ^ 64) : n < 2 ^ 63 := by
  cases n with
  | zero => decide
  | succ n =>
    have hlast := h n (Nat.lt_succ_self n)
    omega

/-- From a configuration with well-formed patterns the service starts, unless no clock gets as far as its first cycle.
Asked for so many cycles, it prints as many groups of lines, however many requests come before each of them. -/
theorem prints_what_was_served [Globs] [SpanWords] [TomlFormat] [FloatFormat] [LawfulFloatFormat] (c : Config)
    (hperiod : 0 < c.period.nanos) {patterns : NamePatterns}
    (hpatterns : NamePatterns.parse c.included c.excluded = .ok patterns) (runtime : Runtime) :
    (runtime.isBeyondReach 0 c.period = true → start c runtime = .error (.panic beyondReach)) ∧
    (runtime.isBeyondReach 0 c.period = false → ∃ service, start c runtime = .ok service ∧
      (∀ arguments, Course.ofCommand (.run arguments) c runtime = .serve service arguments.cycles) ∧
      (∀ count, ∃ rounds : List Round, service.cyclesFrom count = service.through rounds ∧
        rounds.map Round.now =
          (List.range count).map fun k => ((Ticker.startedAt runtime 0 c.period.nanos hperiod).later k).due) ∧
      ∀ (cycles : Nat) (console : Console), console.printed = [] →
        (∀ i < requestsIn (console.coming cycles), i * 7919 < 2 ^ 64) →
          ∃ (groups : List (List Point)) (texts : List String), groups.length = cycles ∧
            ((service.serve Console.wait Console.print cycles).run console).2.printed = texts.map String.toUTF8 ∧
            List.Forall₂ (fun text group => Text.pieces '\n' text.toList = group.map (·.json.toList) ++ [[]])
              texts groups ∧
            Prints c.tags patterns.admits c.skipIdle none 0 (console.coming cycles) groups) := by
  obtain ⟨plan, hplan, htags, hskip, hfilter⟩ : ∃ plan, ReporterPlan.ofConfig c = .ok plan ∧ plan.tags = c.tags ∧
      plan.settings.skipIdle = c.skipIdle ∧ plan.settings.filter = .ofNames patterns.admits :=
    ⟨_, ReporterPlan.ofConfig_of_patterns hpatterns, rfl, rfl, rfl⟩
  constructor
  · intro hreach
    rw [start_of_pos hperiod, hplan, hreach]
    rfl
  · intro hreach
    have hstart := (start_eq_ok_iff hperiod runtime _).mpr ⟨plan, hplan, hreach, rfl⟩
    refine ⟨_, hstart, ?_, exists_rounds _, ?_⟩
    · intro arguments
      rw [Course.ofCommand, hstart]
    · intro cycles console hnone hsmall
      have hn := lt_of_no_overflow hsmall
      obtain ⟨groups, hprints, hprinted⟩ :=
        (stands_planned (.startedAt runtime 0 c.period.nanos hperiod)).serve hfilter rfl cycles console (by omega)
      rw [htags, hskip] at hprints
      refine ⟨groups, groups.map textOf, ?_, ?_, ?_, hprints⟩
      · rw [hprints.length_eq, Console.coming, List.length_map, List.length_range']
      · rw [hprinted, hnone, List.nil_append, List.map_map]
        rfl
      · rw [List.forall₂_map_left_iff, List.forall₂_same]
        exact fun group _ => pieces_textOf group

theorem prints_what_was_served_in_busy_and_quiet_cycles :
    let c : Config := {
      tags := NameMap.ofList [("host", "web")], included := ["http.*"], excluded := ["*.payload_bytes"]
      skipIdle := true }
    let busy : Round := ⟨[0, 20000000], 10000000000, .ofEpochNanos 10000000000⟩
    let quiet : Round := ⟨[], 20000000000, .ofEpochNanos 20000000000⟩
    ∃ (service : Service) (requests errors latency later : Point) (first second : String), start c = .ok service ∧
      ((service.serve Console.wait Console.print 2).run { rounds := fun k => if k = 0 then busy else quiet }).2.printed =
        [first.toUTF8, second.toUTF8] ∧
      Text.pieces '\n' first.toList = [requests, errors, latency].map (·.json.toList) ++ [[]] ∧
      Text.pieces '\n' second.toList = [later.json.toList, []] ∧
      Line c.tags 2 busy.time .counter requests ∧ Line c.tags 2 busy.time .meter errors ∧
      Line c.tags 2 busy.time .timer latency ∧ Line c.tags 2 quiet.time .counter later := by
  intro c busy quiet
  obtain ⟨patterns, hpatterns⟩ : ∃ patterns, NamePatterns.parse c.included c.excluded = .ok patterns := ⟨_, rfl⟩
  have hreported {before? : Option Nat} {kinds : List Kind}
      (h : (NamePatterns.parse c.included c.excluded).map
        (fun patterns => Traffic.reported patterns.admits true before? 2 Kind.all) = .ok kinds) :
      Traffic.reported patterns.admits true before? 2 Kind.all = kinds := by
    rw [hpatterns] at h
    exact Except.ok.inj h
  obtain ⟨service, hstart, -, -, hprints⟩ := (prints_what_was_served c (by decide) hpatterns .observed).2 (by decide)
  obtain ⟨groups, texts, -, houtput, hpieces, hgroups⟩ :=
    hprints 2 { rounds := fun k => if k = 0 then busy else quiet } rfl (by decide)
  change Prints _ _ _ _ _ [busy, quiet] groups at hgroups
  rcases hgroups with _ | ⟨hbusy, _ | ⟨hquiet, _ | _⟩⟩
  have hfirst : Traffic.reported patterns.admits true none 2 Kind.all = [.counter, .meter, .timer] :=
    hreported (by decide +kernel)
  have hsecond : Traffic.reported patterns.admits true (some 2) 2 Kind.all = [.counter] :=
    hreported (by decide +kernel)
  rw [show Traffic.reported _ c.skipIdle none (0 + busy.requests.length) Kind.all = _ from hfirst] at hbusy
  rw [show Traffic.reported _ c.skipIdle (some (0 + busy.requests.length)) (0 + busy.requests.length +
    quiet.requests.length) Kind.all = _ from hsecond] at hquiet
  rcases hbusy with _ | ⟨hrequests, _ | ⟨herrors, _ | ⟨hlatency, _ | _⟩⟩⟩
  rcases hquiet with _ | ⟨hlater, _ | _⟩
  rcases hpieces with _ | ⟨hone, _ | ⟨hother, _ | _⟩⟩
  exact ⟨service, _, _, _, _, _, _, hstart, houtput, hone, hother, hrequests, herrors, hlatency, hlater⟩

theorem prints_nothing_beyond_reach :
    let s : Surroundings := ⟨fun _ => none, fun _ => .missing⟩
    let arguments := ["run", "--cycles", "1", "--period", "9223372036854775808s", "--include", "queue.*"]
    ∃ (i : Invocation) (c : Config) (patterns : NamePatterns), Invocation.parse arguments = .ok i ∧
      i.config s = .ok c ∧ NamePatterns.parse c.included c.excluded = .ok patterns ∧
      Traffic.reported patterns.admits c.skipIdle none 1 Kind.all = [.gauge] ∧
      start c = .error (.panic beyondReach) ∧
      Course.ofArguments s arguments = .exit 101 "" "overflow when adding duration to instant\n" := by
  intro s arguments
  exact ⟨_, _, _, rfl, rfl, rfl, rfl, rfl, rfl⟩

end CommandLine.Service

end MetricReporting
