import Mathlib.Data.List.Perm.Basic
import MetricReporting.Proofs.LatestValues

namespace MetricReporting

namespace Timer

/-- What is done with one timer. The timings that are running are counted from the newest, and what a panic drops on
its way out of a body is dropped before the panic. -/
inductive Operation
  | update (span : Span)
  | start
  | stop (n : Nat)
  | drop (n : Nat)
  | time (body : List Operation)
  | panic (payload : Panic)
  | rescue (body handler : List Operation)
  | advance (span : Span)
  | setClock (nanos : UInt64)
  | look

structure Running where
  number : Nat
  since : Nat
  timing : Timing

inductive Entry
  | update (span : Span)
  | timing (number since finish : Nat)

namespace Entry

def number? : Entry → Option Nat
  | update _ => none
  | timing number _ _ => some number

def nanos : Entry → Int
  | update span => span.nanos
  | timing _ since finish => max 0 ((finish : Int) - since)

def sample (e : Entry) : Int := min e.nanos (Nat.pow 2 63 - 1 : Nat)

end Entry

inductive Sight
  | answer (since finish : Nat) (elapsed : Span)
  | look (timer : Timer Float) (journal : List Entry)

structure Session where
  store : Store
  begun : Nat := 0
  running : List Running := []
  journal : List Entry := []
  sights : List Sight := []

namespace Session

def onStore {α : Type} (action : Action Store α) : Action Session α :=
  action.on store (fun store d => { d with store })

def note (entry : Session → Entry) : Action Session Unit :=
  Action.modify fun d => { d with journal := d.journal ++ [entry d] }

def see (sight : Session → Sight) : Action Session Unit :=
  Action.modify fun d => { d with sights := d.sights ++ [sight d] }

def close (n : Nat) : Action Session (Option (Running × Span)) := do
  let found ← Action.modifyGet fun d => (d.running[n]?, { d with running := d.running.eraseIdx n })
  match found with
  | none => return none
  | some r =>
    note fun d => .timing r.number r.since d.store.now
    let elapsed ← onStore r.timing.close
    return some (r, elapsed)

def timed (h : Handle .timer) (body : Action Session Unit) : Action Session Unit := fun d =>
  let started := { d with begun := d.begun + 1 }
  let step := time h (fun s =>
    let inner := body { started with store := s }
    { result := inner.result, state := inner.state.store, events := inner.events }) d.store
  let after := (body started).state
  { step with state := { after with
    store := step.state
    journal := after.journal ++ [.timing d.begun d.store.now step.state.now] } }

mutual

def perform (h : Handle .timer) : Operation → Action Session Unit
  | .update span => do
    note fun _ => .update span
    onStore (record h span)
  | .start => do
    let timing ← onStore (startTiming h)
    Action.modify fun d =>
      { d with begun := d.begun + 1, running := ⟨d.begun, d.store.now, timing⟩ :: d.running }
  | .stop n => do
    match ← close n with
    | none => return ()
    | some (r, elapsed) => see fun d => .answer r.since d.store.now elapsed
  | .drop n => do
    let _ ← close n
  | .time body => timed h (performAll h body)
  | .panic payload => Action.panic payload
  | .rescue body handler => do
    match ← Action.attempt (performAll h body) with
    | .ok _ => return ()
    | .error _ => performAll h handler
  | .advance span => onStore (Action.modify fun s => { s with clock := s.clock.advance span })
  | .setClock nanos => onStore (Action.modify fun s => { s with clock := ⟨nanos⟩ })
  | .look => see fun d => .look (d.store.get h) d.journal

def performAll (h : Handle .timer) : List Operation → Action Session Unit
  | [] => return ()
  | op :: rest => do
    perform h op
    performAll h rest

end

end Session

section Accounts

structure Accounts (t : Timer Float) (journal : List Entry) : Prop where
  histogram : t.histogram.count = Int64.ofNat journal.length
  meter : t.meter.Counts journal.length
  window : t.histogram.window = 1028
  samples : t.histogram.samples.map Int64.toInt = (journal.map Entry.sample).rtake 1028

theorem accounts_startedAt (now : Nat) : Accounts (startedAt now) [] where
  histogram := rfl
  meter := .startedWith Float.exp now
  window := rfl
  samples := rfl

theorem toInt_sampleOf (span : Span) : (sampleOf span).toInt = min (span.nanos : Int) (Nat.pow 2 63 - 1 : Nat) := by
  have hpow : Nat.pow 2 63 = 9223372036854775808 := rfl
  rw [sampleOf, Int64.toInt_ofNat_of_lt (by omega), hpow]
  omega

theorem Accounts.update {t : Timer Float} {journal : List Entry} (accounts : Accounts t journal) (now : Nat)
    {span : Span} {entry : Entry} (hnanos : entry.nanos = span.nanos) :
    Accounts (t.update now span) (journal ++ [entry]) where
  histogram := by
    rw [Timer.update, Histogram.count_update, accounts.histogram, List.length_append]
    exact (Int64.ofNat_add _ 1).symm
  meter := by
    rw [List.length_append]
    exact accounts.meter.mark now
  window := (Histogram.window_update _ _).trans accounts.window
  samples := by
    have hlatest := rtake_of_rtake_succ (journal.map Entry.sample) 1027
    rw [← accounts.samples, List.length_map] at hlatest
    have hsample : (sampleOf span).toInt = entry.sample := by rw [toInt_sampleOf, Entry.sample, hnanos]
    rw [Timer.update, Histogram.samples_update, accounts.window, List.map_append, List.map_append]
    simp only [List.map_cons, List.map_nil, List.rtake_concat_succ, hsample]
    rw [← hlatest]
    split <;> simp

end Accounts

theorem close_ends (timing : Timing) (s : Store) :
    ∃ result, (timing.close s).Ends result (s.update timing.timer fun t => t.update s.now ⟨s.now - timing.start⟩) ∧
      ∀ elapsed, result = .ok elapsed → elapsed = ⟨s.now - timing.start⟩ := by
  obtain ⟨result, hrecord, -⟩ := record_ends timing.timer ⟨s.now - timing.start⟩ s
  cases result with
  | error fault => exact ⟨.error fault, .bind_ok ⟨rfl, rfl⟩ (.bind_error hrecord), nofun⟩
  | ok _ =>
    refine ⟨.ok ⟨s.now - timing.start⟩, .bind_ok ⟨rfl, rfl⟩ (.bind_ok hrecord ⟨rfl, rfl⟩), ?_⟩
    rintro _ ⟨rfl⟩
    rfl

theorem state_time {α : Type} (h : Handle .timer) (action : Action Store α) (s : Store) :
    (time h action s).state =
      (action s).state.update h fun t => t.update (action s).state.now ⟨(action s).state.now - s.now⟩ := by
  have hcaught : ((Action.attempt action) s).Ends (.ok (action s).result) (action s).state := ⟨rfl, rfl⟩
  have hstarted : (startTiming h s).Ends (.ok ⟨h, s.now⟩) s := .bind_ok ⟨rfl, rfl⟩ ⟨rfl, rfl⟩
  obtain ⟨result, hclose, -⟩ := close_ends ⟨h, s.now⟩ (action s).state
  cases result with
  | error fault => exact (hstarted.bind_ok (hcaught.bind_ok (.bind_error hclose))).2
  | ok elapsed =>
    have hends : (time h action s).Ends (action s).result
        ((action s).state.update h fun t => t.update (action s).state.now ⟨(action s).state.now - s.now⟩) := by
      refine hstarted.bind_ok (hcaught.bind_ok (.bind_ok hclose ?_))
      cases (action s).result <;> exact ⟨rfl, rfl⟩
    exact hends.2

namespace Session

variable {h : Handle .timer} {d d' : Session}

def recorded (d : Session) (h : Handle .timer) (span : Span) (entry : Entry) : Session :=
  { d with
    store := d.store.update h fun t => t.update d.store.now span
    journal := d.journal ++ [entry] }

def closed (d : Session) (n : Nat) (r : Running) : Session :=
  { d with running := d.running.eraseIdx n }.recorded r.timing.timer ⟨d.store.now - r.timing.start⟩
    (.timing r.number r.since d.store.now)

theorem close_cases (n : Nat) (d : Session) :
    (close n d).Ends (.ok none) d ∨
      ∃ r, d.running[n]? = some r ∧ ∃ result, (close n d).Ends result (d.closed n r) ∧
        ∀ found, result = .ok found → found = some (r, ⟨d.store.now - r.timing.start⟩) := by
  cases hr : d.running[n]? with
  | none =>
    have hsame : { d with running := d.running.eraseIdx n } = d := by
      rw [List.eraseIdx_of_length_le (List.getElem?_eq_none_iff.mp hr)]
    exact .inl (.bind_ok ⟨congrArg Except.ok hr, hsame⟩ ⟨rfl, rfl⟩)
  | some r =>
    obtain ⟨result, hclose, helapsed⟩ := close_ends r.timing d.store
    refine .inr ⟨r, rfl, result.map fun elapsed => some (r, elapsed), ?_, ?_⟩
    · refine .bind_ok ⟨congrArg Except.ok hr, rfl⟩ (.bind_ok ⟨rfl, rfl⟩ ?_)
      cases result with
      | error fault => exact .bind_error (.on hclose)
      | ok elapsed => exact .bind_ok (.on hclose) ⟨rfl, rfl⟩
    · intro found hfound
      cases result with
      | error fault => cases hfound
      | ok elapsed =>
        cases hfound
        rw [helapsed elapsed rfl]

theorem state_timed (body : Action Session Unit) (d : Session) :
    (timed h body d).state =
      (body { d with begun := d.begun + 1 }).state.recorded h
        ⟨(body { d with begun := d.begun + 1 }).state.store.now - d.store.now⟩
        (.timing d.begun d.store.now (body { d with begun := d.begun + 1 }).state.store.now) := by
  have hstate := state_time h (fun s =>
    let inner := body { d with begun := d.begun + 1, store := s }
    { result := inner.result, state := inner.state.store, events := inner.events }) d.store
  simp only [timed, hstate]
  rfl

end Session

def Sight.IsTrue (journal : List Entry) : Sight → Prop
  | answer since finish elapsed => (elapsed.nanos : Int) = max 0 ((finish : Int) - since)
  | look t before => before <+: journal ∧ Accounts t before

theorem Sight.IsTrue.append {journal : List Entry} {sight : Sight} (h : sight.IsTrue journal) (entry : Entry) :
    sight.IsTrue (journal ++ [entry]) := by
  cases sight with
  | answer since finish elapsed => exact h
  | look t before => exact ⟨h.1.trans (List.prefix_append journal [entry]), h.2⟩

namespace Session

variable {h : Handle .timer} {d d' d'' : Session}

structure Sound (h : Handle .timer) (d : Session) : Prop where
  isIn : h.index < (d.store.objects .timer).size
  accounts : Accounts (d.store.get h) d.journal
  running : ∀ r ∈ d.running, r.timing = ⟨h, r.since⟩
  sights : ∀ sight ∈ d.sights, sight.IsTrue d.journal

theorem Sound.recorded (sound : Sound h d) {span : Span} {entry : Entry} (hnanos : entry.nanos = span.nanos) :
    Sound h (d.recorded h span entry) where
  isIn := by
    rw [Session.recorded, Store.update, Store.size_objects_set]
    exact sound.isIn
  accounts := by
    rw [Session.recorded, Store.update, Store.get_set, if_pos ⟨rfl, sound.isIn⟩]
    exact sound.accounts.update d.store.now hnanos
  running := sound.running
  sights sight hsight := (sound.sights sight hsight).append entry

def numbers (d : Session) : List Nat := d.running.map Running.number ++ d.journal.filterMap Entry.number?

structure Follows (h : Handle .timer) (d d' : Session) : Prop where
  sound : Sound h d → Sound h d'
  numbers : ∃ k, d'.begun = d.begun + k ∧ d'.numbers.Perm (d.numbers ++ List.range' d.begun k)

theorem Follows.of_numbers_eq (sound : Sound h d → Sound h d') (hbegun : d'.begun = d.begun)
    (hnumbers : d'.numbers = d.numbers) : Follows h d d' :=
  ⟨sound, 0, hbegun, by rw [hnumbers, List.range'_zero, List.append_nil]⟩

theorem Follows.trans (hd : Follows h d d') (hd' : Follows h d' d'') : Follows h d d'' := by
  obtain ⟨k, hbegun, hnumbers⟩ := hd.numbers
  obtain ⟨k', hbegun', hnumbers'⟩ := hd'.numbers
  refine ⟨fun sound => hd'.sound (hd.sound sound), k + k', by omega, ?_⟩
  rw [← List.range'_append_1, ← List.append_assoc, ← hbegun]
  exact hnumbers'.trans (hnumbers.append_right _)

instance : IsPreorder Session (Follows h) where
  refl _ := .of_numbers_eq id rfl rfl
  trans _ _ _ := Follows.trans

theorem follows_update (span : Span) (d : Session) : Follows h d (d.recorded h span (.update span)) := by
  apply Follows.of_numbers_eq
  · exact fun sound => sound.recorded rfl
  · rfl
  · simp [Session.numbers, Session.recorded, Entry.number?]

theorem follows_start (d : Session) :
    Follows h d { d with begun := d.begun + 1, running := ⟨d.begun, d.store.now, h, d.store.now⟩ :: d.running } := by
  refine ⟨fun sound => { sound with running := ?_ }, 1, rfl, ?_⟩
  · exact List.forall_mem_cons.mpr ⟨rfl, sound.running⟩
  · exact (List.perm_append_singleton d.begun d.numbers).symm

theorem follows_closed {n : Nat} {r : Running} (hr : d.running[n]? = some r) : Follows h d (d.closed n r) := by
  obtain ⟨hn, rfl⟩ := List.getElem?_eq_some_iff.mp hr
  refine ⟨fun sound => ?_, 0, rfl, ?_⟩
  · have htiming := sound.running _ (List.getElem_mem hn)
    have herased : Sound h { d with running := d.running.eraseIdx n } :=
      { sound with running := fun r hr => sound.running r (List.mem_of_mem_eraseIdx hr) }
    rw [closed, htiming]
    apply herased.recorded
    simp only [Entry.nanos]
    omega
  · have herase := (List.getElem_cons_eraseIdx_perm hn).map Running.number
    simp only [Session.numbers, closed, recorded, List.filterMap_append, List.range'_zero, List.append_nil]
    refine .trans ?_ (herase.append_right _)
    rw [← List.append_assoc]
    exact List.perm_append_singleton _ _

theorem follows_time (hbody : Follows h { d with begun := d.begun + 1 } d') :
    Follows h d (d'.recorded h ⟨d'.store.now - d.store.now⟩ (.timing d.begun d.store.now d'.store.now)) := by
  obtain ⟨k, hbegun, hnumbers⟩ := hbody.numbers
  refine ⟨fun sound => ?_, k + 1, ?_, ?_⟩
  · have hstarted : Sound h { d with begun := d.begun + 1 } := { sound with }
    apply (hbody.sound hstarted).recorded
    simp only [Entry.nanos]
    omega
  · simp only [Session.recorded, hbegun]
    omega
  · rw [List.range'_succ, List.append_cons]
    simp only [Session.numbers, Session.recorded, List.filterMap_append, ← List.append_assoc] at hnumbers ⊢
    refine (hnumbers.append_right _).trans ?_
    simp only [List.append_assoc]
    exact (List.Perm.append_left _ (List.Perm.append_left _ List.perm_append_comm))

theorem follows_clock (clock : Clock) (d : Session) : Follows h d { d with store := { d.store with clock } } :=
  .of_numbers_eq (fun sound => { sound with }) rfl rfl

theorem Sound.see (sound : Sound h d) {sight : Sight} (hsight : sight.IsTrue d.journal) :
    Sound h { d with sights := d.sights ++ [sight] } := by
  refine { sound with sights := ?_ }
  rw [List.forall_mem_append]
  exact ⟨sound.sights, List.forall_mem_singleton.mpr hsight⟩

theorem follows_look (d : Session) :
    Follows h d { d with sights := d.sights ++ [.look (d.store.get h) d.journal] } :=
  .of_numbers_eq (fun sound => sound.see ⟨List.prefix_refl _, sound.accounts⟩) rfl rfl

theorem follows_stop (n : Nat) (d : Session) : Follows h d (perform h (.stop n) d).state := by
  rcases close_cases n d with hnone | ⟨r, hr, result, hclosed, hfound⟩
  · have hends : (perform h (.stop n) d).Ends (.ok ()) d := .bind_ok hnone ⟨rfl, rfl⟩
    rw [hends.2]
    exact Std.Refl.refl d
  · have hfollows := follows_closed (h := h) hr
    cases result with
    | error fault =>
      have hends : (perform h (.stop n) d).Ends (.error fault) _ := .bind_error hclosed
      rw [hends.2]
      exact hfollows
    | ok found =>
      cases hfound found rfl
      have hends : (perform h (.stop n) d).Ends (.ok ()) _ := .bind_ok hclosed ⟨rfl, rfl⟩
      rw [hends.2]
      refine ⟨fun sound => (hfollows.sound sound).see ?_, hfollows.numbers⟩
      have hsince : r.timing.start = r.since := by rw [sound.running r (List.mem_of_getElem? hr)]
      change ((d.store.now - r.timing.start : Nat) : Int) = max 0 ((d.store.now : Int) - r.since)
      omega

theorem follows_drop (n : Nat) (d : Session) : Follows h d (perform h (.drop n) d).state := by
  rw [perform, Action.state_map]
  rcases close_cases n d with hnone | ⟨r, hr, result, hclosed, -⟩
  · rw [hnone.2]
    exact Std.Refl.refl d
  · rw [hclosed.2]
    exact follows_closed hr

mutual

theorem follows_perform (h : Handle .timer) (op : Operation) : Action.Keeps (Follows h) (perform h op) := by
  intro d
  cases op with
  | update span =>
    obtain ⟨result, hrecord, -⟩ := record_ends h span d.store
    have hends : (perform h (.update span) d).Ends result (d.recorded h span (.update span)) :=
      .bind_ok ⟨rfl, rfl⟩ (.on hrecord)
    rw [hends.2]
    exact follows_update span d
  | start => exact follows_start d
  | stop n => exact follows_stop n d
  | drop n => exact follows_drop n d
  | time body =>
    rw [perform, state_timed]
    exact follows_time (follows_performAll h body _)
  | panic payload => exact Action.Keeps.stop (.panic payload) d
  | rescue body handler =>
    rw [perform]
    apply Action.Keeps.bind
    · exact follows_performAll h body
    · rintro (fault | -)
      · exact follows_performAll h handler
      · exact Action.Keeps.pure ()
  | advance span => exact follows_clock _ d
  | setClock nanos => exact follows_clock _ d
  | look => exact follows_look d

theorem follows_performAll (h : Handle .timer) (ops : List Operation) :
    Action.Keeps (Follows h) (performAll h ops) := by
  cases ops with
  | nil => exact Action.Keeps.pure ()
  | cons op rest =>
    rw [performAll]
    exact Action.Keeps.bind (follows_perform h op) (fun _ => follows_performAll h rest)

end

def fresh (s : Store) : Handle .timer × Session :=
  let object : Kind.timer.Object := startedAt s.now
  let (h, store) := s.add object
  (h, { store })

theorem sound_fresh (s : Store) : Sound (fresh s).1 (fresh s).2 where
  isIn := @Store.isIn_add .timer s _
  accounts := by
    rw [fresh, Store.get_add_self]
    exact accounts_startedAt s.now
  running r hr := nomatch hr
  sights sight hsight := nomatch hsight

end Session

def updates (journal : List Entry) : Nat := journal.countP (·.number?.isNone)

def endings (journal : List Entry) : Nat := journal.countP (·.number?.isSome)

structure Shows (t : Timer Float) (journal : List Entry) : Prop where
  count : t.count.toInt = updates journal + endings journal
  histogram : t.histogram.count.toInt = updates journal + endings journal
  meter : t.meter.count.toInt = updates journal + endings journal
  sound : t.meter.poisoned = false
  samples : t.histogram.samples.map Int64.toInt = (journal.map Entry.sample).rtake 1028

theorem length_eq_updates_add_endings (journal : List Entry) : journal.length = updates journal + endings journal := by
  rw [updates, endings, List.length_eq_countP_add_countP (p := fun e => e.number?.isNone)]
  congr 2
  funext e
  cases e <;> rfl

theorem Accounts.shows {t : Timer Float} {journal : List Entry} (accounts : Accounts t journal)
    (few : journal.length < Nat.pow 2 63) : Shows t journal := by
  have htotal : (Int64.ofNat journal.length).toInt = updates journal + endings journal := by
    rw [Int64.toInt_ofNat_of_lt few, length_eq_updates_add_endings]
    exact Int.natCast_add _ _
  have hhistogram := (congrArg Int64.toInt accounts.histogram).trans htotal
  exact ⟨hhistogram, hhistogram, (congrArg Int64.toInt accounts.meter.count).trans htotal, accounts.meter.sound few,
    accounts.samples⟩

/-- The timer shows what is in the journal, at the end and whenever it was looked at. A timing is in the journal once if
it has ended, and not if it is running. -/
theorem recorded_once (s : Store) (ops : List Operation)
    (few : (Session.performAll (Session.fresh s).1 ops (Session.fresh s).2).state.journal.length < Nat.pow 2 63) :
    let h := (Session.fresh s).1
    let d := (Session.performAll h ops (Session.fresh s).2).state
    Shows (d.store.get h) d.journal ∧
      (∀ t journal, .look t journal ∈ d.sights → Shows t journal) ∧
      (∀ (since finish : Nat) (elapsed : Span), .answer since finish elapsed ∈ d.sights →
        (elapsed.nanos : Int) = max 0 ((finish : Int) - since)) ∧
      (d.running.map Running.number ++ d.journal.filterMap Entry.number?).Perm (List.range d.begun) := by
  intro h d
  have hfollows : Session.Follows h (Session.fresh s).2 d := Session.follows_performAll h ops _
  have sound := hfollows.sound (Session.sound_fresh s)
  refine ⟨sound.accounts.shows few, ?_, ?_, ?_⟩
  · intro t journal hlook
    obtain ⟨hbegins, haccounts⟩ := sound.sights _ hlook
    exact haccounts.shows (hbegins.length_le.trans_lt few)
  · intro since finish elapsed hanswer
    exact sound.sights _ hanswer
  · obtain ⟨k, hbegun, hnumbers⟩ := hfollows.numbers
    have hk : d.begun = k := hbegun.trans (Nat.zero_add k)
    rw [hk, List.range_eq_range']
    exact hnumbers

theorem recorded_once_in_spite_of_panics :
    let boom : Operation := .panic (.text "boom")
    let inner : List Operation := [.setClock 30, boom]
    let outer : List Operation := [.start, .advance ⟨3⟩, .look, .rescue [.time inner] [.drop 0, boom]]
    let ops : List Operation := [.update ⟨Nat.pow 2 64⟩, .setClock 10, .start, .advance ⟨5⟩, .start,
      .rescue [.time outer] [], .setClock 4, .stop 1]
    let d := (Session.performAll (Session.fresh {}).1 ops (Session.fresh {}).2).state
    (d.store.get (Session.fresh {}).1).count.toInt = 5 ∧
      (d.store.get (Session.fresh {}).1).histogram.samples.map Int64.toInt = [9223372036854775807, 12, 15, 15, 0] ∧
      d.running.map Running.number = [1] := by
  intro boom inner outer ops d
  obtain ⟨hshows, -⟩ := recorded_once {} ops (by decide +kernel)
  refine ⟨hshows.count.trans ?_, hshows.samples.trans ?_, ?_⟩
  · decide +kernel
  · decide +kernel
  · decide +kernel

end Timer

end MetricReporting
