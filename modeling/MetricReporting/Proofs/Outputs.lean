import MetricReporting.Proofs.Deliveries
import MetricReporting.Sender.JsonLines

namespace MetricReporting

namespace Sender

namespace Memory

def outlet : Outlet Memory (List (List Point)) where
  pending := Memory.pending
  output := Memory.batches
  put batches batch := batches ++ [batch]

theorem outlet_works : outlet.Works where
  flush _ _ := ⟨trivial, rfl⟩
  flushed _ _ := rfl
  append _ _ _ := ⟨trivial, rfl⟩
  appended _ _ _ := rfl
  hasData _ _ := ⟨trivial, rfl⟩
  asked _ := rfl
  answered _ _ := rfl
  write_error _ _ h := by cases h
  written _ _ _ := ⟨trivial, rfl⟩

theorem put_batches (kept batches : List (List Point)) : batches.foldl outlet.put kept = kept ++ batches := by
  induction batches generalizing kept with
  | nil => exact (List.append_nil kept).symm
  | cons batch rest ih => exact (ih (kept ++ [batch])).trans (List.append_cons kept batch rest).symm

end Memory

namespace Recording

theorem dataAnswer_flush (s : Recording) : (Sender.flush s).state.dataAnswer = s.dataAnswer := by
  rcases flush_cases s with h | h <;> rw [h.2] <;> rfl

theorem dataAnswer_append (p : Point) (s : Recording) : (Sender.append p s).state.dataAnswer = s.dataAnswer := by
  rcases append_cases p s with h | h <;> rw [h.2] <;> rfl

theorem dataAnswer_write (s : Recording) : (Sender.write s).state.dataAnswer = s.dataAnswer := by
  rcases write_cases s with h | h <;> rw [h.2] <;> rfl

def outlet (answer : Option Bool) : Outlet Recording (List Point) where
  pending := Recording.pending
  output := Recording.written
  put written batch := written ++ batch
  answer := answer
  Sound s := s.dataAnswer = answer

theorem outlet_works (answer : Option Bool) : (outlet answer).Works where
  flush s sound := ⟨(dataAnswer_flush s).trans sound, (view_tracks.flush s).delivered⟩
  flushed := view_tracks.flushed
  append p s sound := ⟨(dataAnswer_append p s).trans sound, (view_tracks.append p s).delivered⟩
  appended := view_tracks.appended
  hasData _ sound := ⟨sound, rfl⟩
  asked := view_tracks.asked
  answered s sound := by
    have hanswer : (Sender.hasData s).result = .ok (s.dataAnswer.getD !s.pending.isEmpty) := rfl
    have hsound : s.dataAnswer = answer := sound
    rw [hanswer, hsound]
    rfl
  write_error s fault h sound :=
    ⟨(dataAnswer_write s).trans sound, (view_tracks.write_error s fault h).delivered⟩
  written s h sound := ⟨(dataAnswer_write s).trans sound, (view_tracks.written s h).1⟩

theorem put_batches (answer : Option Bool) (written : List Point) (batches : List (List Point)) :
    batches.foldl (outlet answer).put written = written ++ batches.flatten := by
  induction batches generalizing written with
  | nil => exact (List.append_nil written).symm
  | cons batch rest ih => exact (ih (written ++ batch)).trans (List.append_assoc written batch rest.flatten)

end Recording

namespace JsonLines

def line [FloatFormat] (common : Tags) (p : Point) : String := (outgoing common p).json ++ "\n"

def printed (s : JsonLines) (text : String) : JsonLines :=
  { s with out := { s.out with written := s.out.written ++ text.toUTF8 } }

theorem printed_empty (s : JsonLines) : s.printed "" = s := by
  have hnone : s.out.written ++ ("" : String).toUTF8 = s.out.written := ByteArray.append_empty
  rw [printed, hnone]

theorem printed_append (s : JsonLines) (text more : String) :
    s.printed (text ++ more) = (s.printed text).printed more := by
  have hbytes : s.out.written ++ (text ++ more).toUTF8 = s.out.written ++ text.toUTF8 ++ more.toUTF8 := by
    rw [ByteArray.append_assoc]
    exact congrArg _ String.toByteArray_append
  rw [printed, hbytes]
  rfl

variable {s : JsonLines} (unbounded : s.out.room = none)

include unbounded

theorem put_ends (text : String) (cause : String → Failure) : (put text cause s).Ends (.ok ()) (s.printed text) := by
  have hput : s.out.put text.toUTF8 = (none, (s.printed text).out) := by
    unfold Output.put
    split
    · rfl
    · next room hroom => cases unbounded.symm.trans hroom
  refine .bind_ok ⟨rfl, rfl⟩ ?_
  rw [hput]
  exact .bind_ok ⟨rfl, rfl⟩ ⟨rfl, rfl⟩

theorem writeLine_ends [FloatFormat] (p : Point) : (writeLine p s).Ends (.ok ()) (s.printed (line s.tags p)) := by
  rw [line, printed_append]
  have hdrops : ((drops p).forM Action.log s : Step JsonLines Unit).Ends (.ok ()) s := by
    have hlog := Action.forM_log (drops p) s
    exact ⟨congrArg Step.result hlog, congrArg Step.state hlog⟩
  have hpoint := put_ends unbounded (outgoing s.tags p).json .encodingStopped
  have hlineEnd := put_ends (s := s.printed (outgoing s.tags p).json) unbounded "\n" .lineEndStopped
  exact .bind_ok hdrops (.bind_ok ⟨rfl, rfl⟩ (.bind_ok hpoint hlineEnd))

theorem writeLines_end [FloatFormat] (points : List Point) :
    ((forM points writeLine : Action JsonLines Unit) s).Ends (.ok ())
      (s.printed (String.join (points.map (line s.tags)))) := by
  induction points generalizing s with
  | nil => exact ⟨rfl, (printed_empty s).symm⟩
  | cons p rest ih =>
    rw [List.forM_cons, List.map_cons, String.join_cons, printed_append]
    exact .bind_ok (writeLine_ends unbounded p) (ih unbounded)

theorem write_ends [FloatFormat] (flushes : s.out.flushReason = none) :
    (Sender.write s).Ends (.ok ())
      ({ s with pending := [] }.printed (String.join (s.pending.map (line s.tags)))) := by
  have hlines := writeLines_end (s := { s with pending := [] }) unbounded s.pending
  refine .bind_ok ⟨rfl, rfl⟩ (.bind_ok ⟨rfl, rfl⟩ (.bind_ok hlines ?_))
  rw [flushes]
  exact ⟨rfl, rfl⟩

omit unbounded

variable [FloatFormat]

def outlet (tags : Tags) : Outlet JsonLines ByteArray where
  pending := JsonLines.pending
  output s := s.out.written
  put written batch := written ++ (String.join (batch.map (line tags))).toUTF8
  Sound s := s.out.room = none ∧ s.out.flushReason = none ∧ s.tags = tags

theorem outlet_works (tags : Tags) : (outlet tags).Works where
  flush _ sound := ⟨sound, rfl⟩
  flushed _ _ := rfl
  append _ _ sound := ⟨sound, rfl⟩
  appended _ _ _ := rfl
  hasData _ sound := ⟨sound, rfl⟩
  asked _ := rfl
  answered _ _ := rfl
  write_error s fault herror := by
    rintro ⟨unbounded, flushes, -⟩
    cases herror.symm.trans (write_ends unbounded flushes).1
  written s _ := by
    rintro ⟨unbounded, flushes, rfl⟩
    rw [(write_ends unbounded flushes).2]
    exact ⟨⟨unbounded, flushes, rfl⟩, rfl⟩

theorem put_batches (tags : Tags) (written : ByteArray) (batches : List (List Point)) :
    batches.foldl (outlet tags).put written =
      written ++ (String.join (batches.flatten.map (line tags))).toUTF8 := by
  induction batches generalizing written with
  | nil => exact ByteArray.append_empty.symm
  | cons batch rest ih =>
    rw [List.foldl_cons, ih, List.flatten_cons, List.map_append, String.join_append]
    refine ByteArray.append_assoc.trans ?_
    exact congrArg _ String.toByteArray_append.symm

end JsonLines

end Sender

namespace Reporter

variable {σ δ : Type} [Sender σ]

def Call.IsCounted (call : Call σ) : Prop :=
  ∀ n k, call.step.result = .ok (.written n k) → ∃ batch, call.batch? = some batch ∧ batch.length = n

def Call.WritesUnlessEmpty (call : Call σ) : Prop :=
  ∀ k, call.step.result = .ok (.nothingToWrite k) ↔
    call.before.flushed.result = .ok () ∧
      ∃ c, (call.before.built call.snapshot call.now).result = .ok c ∧ c.points = [] ∧ c.skipped = k

theorem output_of_works {o : Sender.Outlet σ δ} (works : o.Works) {τ : Type} {part : σ → τ}
    (hpart : ∀ s s', part s' = part s → o.Quiet s s') (st : Station σ) (sound : o.Sound st.reporter.sender)
    (turns : List (Turn σ)) (leave : ∀ turn ∈ turns, turn.Leaves part) :
    o.output (st.through turns).reporter.sender =
        (batches (calls st turns)).foldl o.put (o.output st.reporter.sender) ∧
      ∀ call ∈ calls st turns, call.IsCounted ∧ (o.answer = none → call.WritesUnlessEmpty) := by
  obtain ⟨houtput, hsound⟩ := output_through works st sound turns fun sender instruments hmem s =>
    hpart s _ (leave (.meanwhile sender instruments) hmem s)
  refine ⟨houtput, ?_⟩
  intro call hcall
  exact ⟨fun _ _ => Call.batch?_of_written, fun hanswer => call.nothingToWrite_iff works hanswer (hsound call hcall)⟩

/-- What the senders put out in a run of reports, whatever fails in it and whatever is appended to them in between: the
points of the cycles written, batch by batch, and as many as the outcomes say. A sender with no answer of its own is
told to write unless the cycle has no points. -/
theorem output_is_what_was_written [FloatFormat] :
    (∀ (st : Station Sender.Memory) (turns : List (Turn Sender.Memory)),
      (∀ turn ∈ turns, turn.Leaves Sender.Memory.batches) →
      (st.through turns).reporter.sender.batches = st.reporter.sender.batches ++ batches (calls st turns) ∧
      ∀ call ∈ calls st turns, call.IsCounted ∧ call.WritesUnlessEmpty) ∧
    (∀ (st : Station Sender.Recording) (turns : List (Turn Sender.Recording)),
      (∀ turn ∈ turns, turn.Leaves fun s => (s.written, s.dataAnswer)) →
      (st.through turns).reporter.sender.written =
        st.reporter.sender.written ++ (batches (calls st turns)).flatten ∧
      ∀ call ∈ calls st turns, call.IsCounted ∧ (st.reporter.sender.dataAnswer = none → call.WritesUnlessEmpty)) ∧
    (∀ (st : Station Sender.JsonLines) (turns : List (Turn Sender.JsonLines)),
      st.reporter.sender.out.room = none → st.reporter.sender.out.flushReason = none →
      (∀ turn ∈ turns, turn.Leaves fun s => (s.out, s.tags)) →
      (st.through turns).reporter.sender.out.written =
        st.reporter.sender.out.written ++
          (String.join ((batches (calls st turns)).flatten.map
            (Sender.JsonLines.line st.reporter.sender.tags))).toUTF8 ∧
      ∀ call ∈ calls st turns, call.IsCounted ∧ call.WritesUnlessEmpty) := by
  refine ⟨?_, ?_, ?_⟩
  · intro st turns leave
    have hpart (s s' : Sender.Memory) (h : s'.batches = s.batches) : Sender.Memory.outlet.Quiet s s' :=
      fun _ => ⟨trivial, h⟩
    obtain ⟨houtput, hcalls⟩ := output_of_works Sender.Memory.outlet_works hpart st trivial turns leave
    exact ⟨houtput.trans (Sender.Memory.put_batches _ _),
      fun call hcall => ⟨(hcalls call hcall).1, (hcalls call hcall).2 rfl⟩⟩
  · intro st turns leave
    have hpart (s s' : Sender.Recording) (h : (s'.written, s'.dataAnswer) = (s.written, s.dataAnswer)) :
        (Sender.Recording.outlet st.reporter.sender.dataAnswer).Quiet s s' := by
      obtain ⟨hwritten, hanswer⟩ := Prod.mk.inj h
      exact fun sound => ⟨hanswer.trans sound, hwritten⟩
    obtain ⟨houtput, hcalls⟩ := output_of_works (Sender.Recording.outlet_works _) hpart st rfl turns leave
    exact ⟨houtput.trans (Sender.Recording.put_batches _ _ _), hcalls⟩
  · intro st turns unbounded flushes leave
    have hpart (s s' : Sender.JsonLines) (h : (s'.out, s'.tags) = (s.out, s.tags)) :
        (Sender.JsonLines.outlet st.reporter.sender.tags).Quiet s s' := by
      obtain ⟨hout, htags⟩ := Prod.mk.inj h
      rintro ⟨hroom, hflush, hsame⟩
      refine ⟨⟨?_, ?_, htags.trans hsame⟩, congrArg Output.written hout⟩
      · rw [hout]
        exact hroom
      · rw [hout]
        exact hflush
    obtain ⟨houtput, hcalls⟩ := output_of_works (Sender.JsonLines.outlet_works _) hpart st ⟨unbounded, flushes, rfl⟩
      turns leave
    exact ⟨houtput.trans (Sender.JsonLines.put_batches _ _ _),
      fun call hcall => ⟨(hcalls call hcall).1, (hcalls call hcall).2 rfl⟩⟩

theorem output_is_what_was_written_beside_strays :
    let instruments : Instruments := { store := { counters := #[⟨3⟩] } }
    let snapshot := Snapshot.insert {} "jobs" ⟨.counter, ⟨0⟩⟩
    let now := Instant.ofEpochNanos 0
    let stray : Point := .observed now "stray" .empty
    let recording : Station Sender.Recording := { reporter := { sender := {} }, instruments }
    let troubles : List (Turn Sender.Recording) :=
      [.report snapshot now, .meanwhile (fun s => { s with writeFails := true }) id, .report snapshot now,
        .meanwhile (fun s => { (Sender.append stray s).state with writeFails := false }) id, .report snapshot now]
    let memory : Station Sender.Memory := { reporter := { sender := {} }, instruments }
    let batching : List (Turn Sender.Memory) :=
      [.report snapshot now, .meanwhile (fun s => (Sender.append stray s).state) id, .report snapshot now]
    let lines : Station Sender.JsonLines := { reporter := { sender := {} }, instruments }
    let printing : List (Turn Sender.JsonLines) :=
      [.meanwhile (fun s => (Sender.append stray s).state) id, .report snapshot now]
    (recording.through troubles).reporter.sender.written.map (·.measurement) = ["jobs", "jobs"] ∧
      (memory.through batching).reporter.sender.batches.map (·.map (·.measurement)) = [["jobs"], ["jobs"]] ∧
      (lines.through printing).reporter.sender.out.written =
        "\x7b\"measurement\":\"jobs\",\"tags\":null,\"timestamp\":\"0\",\"fields\":\x7b\"count\":3\x7d\x7d\n".toUTF8 := by
  intro instruments snapshot now stray recording troubles memory batching lines printing
  obtain ⟨hmemory, hrecording, hlines⟩ := output_is_what_was_written
  refine ⟨?_, ?_, ?_⟩
  · have hleaves : ∀ turn ∈ troubles, turn.Leaves fun s => (s.written, s.dataAnswer) := by
      simp only [troubles, List.forall_mem_cons, Turn.Leaves]
      refine ⟨trivial, fun _ => trivial, trivial, fun s => ?_, trivial, nofun⟩
      exact Prod.ext (Sender.Recording.view_tracks.append stray s).delivered
        (Sender.Recording.dataAnswer_append stray s)
    rw [(hrecording recording troubles hleaves).1]
    decide +kernel
  · have hleaves : ∀ turn ∈ batching, turn.Leaves Sender.Memory.batches := by
      simp only [batching, List.forall_mem_cons, Turn.Leaves]
      exact ⟨trivial, fun _ => rfl, trivial, nofun⟩
    rw [(hmemory memory batching hleaves).1]
    decide +kernel
  · have hleaves : ∀ turn ∈ printing, turn.Leaves fun s => (s.out, s.tags) := by
      simp only [printing, List.forall_mem_cons, Turn.Leaves]
      exact ⟨fun _ => rfl, trivial, nofun⟩
    rw [(hlines lines printing rfl rfl hleaves).1]
    decide +kernel

end Reporter

end MetricReporting
