import Cuprum.Pump.Trace

namespace Cuprum.Pump

/-- What an iteration that read a chunk does to the writer. -/
structure Advances (state : PumpState) (chunk : List UInt8) (writes : List WriteReply)
    (stretch : Stretch WriteReply (PumpState × Flow)) : Prop where
  consumed : stretch.log.filterMap Event.writeReply ++ stretch.rest = writes
  onlyWrites : OnlyWrites stretch.log
  ordered : stretch.log.Pairwise Event.Allows
  taken : accepted stretch.log <+: chunk
  drains : state.writerOpen = false → stretch.log = []
  continued : ∀ after flow, stretch.outcome = .returned (after, flow) →
    flow = .continue ∧ (∀ event ∈ stretch.log, event.verdict = none) ∧
      after.totalWritten =
        saturatingAdd state.totalWritten (accepted stretch.log).length ∧
      (after.writerOpen = true →
        accepted stretch.log = chunk ∧ Passing stretch.log) ∧
      (state.writerOpen = false → after.writerOpen = false) ∧
      (state.writerOpen = true → after.writerOpen = false →
        ∃ event ∈ stretch.log, event.breaksPipe = true)
  failed : ∀ error, stretch.outcome = .failed error →
    conclusion stretch.log = some (.error error)
  waiting : stretch.outcome = .waiting →
    state.writerOpen = true ∧ stretch.rest = [] ∧ Passing stretch.log

theorem saturatingAdd_zero {total : Nat} (bounded : total ≤ u64Max) :
    saturatingAdd total 0 = total := by
  unfold saturatingAdd
  omega

theorem saturatingAdd_saturatingAdd (total first second : Nat) :
    saturatingAdd (saturatingAdd total first) second =
      saturatingAdd total (first + second) := by
  unfold saturatingAdd
  omega

theorem saturatingAdd_le (total bytes : Nat) : saturatingAdd total bytes ≤ u64Max := by
  unfold saturatingAdd
  omega

theorem advance_drained {state : PumpState} {readLen : Nat}
    {writeOnce : List WriteReply → Stretch WriteReply WriteEvent}
    (writes : List WriteReply) (nonempty : readLen ≠ 0)
    (closed : state.writerOpen = false) :
    advance state readLen writeOnce writes =
      ⟨.returned (state, .continue), [], writes⟩ := by
  simp [advance, nonempty, closed, step]

theorem writeChunk_overwrite {buffer bytes : List UInt8}
    (fits : bytes.length ≤ buffer.length) (writes : List WriteReply) :
    writeChunk (overwrite buffer bytes) bytes.length writes =
      classifyWriteWith bytes writes := by
  simp only [writeChunk, bufferPrefix_overwrite fits]

theorem advance_advances {buffer chunk : List UInt8} (state : PumpState)
    (writes : List WriteReply) (small : buffer.length ≤ Streams.maxBufferSize)
    (fits : chunk.length ≤ buffer.length) (nonempty : chunk ≠ [])
    (bounded : state.totalWritten ≤ u64Max) :
    Advances state chunk writes
      (advance state chunk.length (writeChunk (overwrite buffer chunk) chunk.length)
        writes) := by
  have some : chunk.length ≠ 0 := fun empty => nonempty (List.length_eq_zero_iff.mp empty)
  cases latch : state.writerOpen with
  | false =>
      rw [advance_drained writes some latch]
      refine ⟨rfl, ?_, .nil, List.nil_prefix, fun _ => rfl, ?_, ?_, ?_⟩
      · exact .nil
      · rintro after flow ⟨rfl⟩
        refine ⟨rfl, by simp, ?_, ?_, fun closed => latch, ?_⟩
        · exact (saturatingAdd_zero bounded).symm
        · exact fun opened => absurd opened (by simp [latch])
        · exact fun opened => absurd opened (by simp [latch])
      · intro error wrong
        cases wrong
      · intro wrong
        cases wrong
  | true =>
      have within : 0 + chunk.length ≤ u64Max := by
        unfold Streams.maxBufferSize at small
        unfold u64Max
        omega
      have written := writeAllUnixWith_writesChunk chunk 0 writes within
      simp only [advance, if_neg some, latch, if_true, writeChunk_overwrite fits,
        classifyWriteWith]
      cases ending : (writeAllUnixWith chunk 0 writes).outcome with
      | returned outcome =>
          cases outcome with
          | complete bytes =>
              simp only [classifyWriteOutcome]
              obtain ⟨whole, total, passing⟩ := written.complete bytes ending
              refine ⟨written.consumed, written.onlyWrites, written.ordered,
                written.taken, ?_, ?_, ?_, ?_⟩
              · exact fun closed => absurd closed (by simp [latch])
              · rintro after flow ⟨rfl⟩
                refine ⟨rfl, fun event member => (passing event member).undecided, ?_,
                  fun _ => ⟨whole, passing⟩, fun closed => absurd closed (by simp [latch]),
                  fun _ closes => absurd closes (by simp [applyWrite, latch])⟩
                rw [whole]
                simp [applyWrite, total]
              · intro error wrong
                cases wrong
              · intro wrong
                cases wrong
          | nonFatalShortWrite bytes =>
              simp only [classifyWriteOutcome]
              obtain ⟨total, undecided, broken⟩ := written.short bytes ending
              refine ⟨written.consumed, written.onlyWrites, written.ordered,
                written.taken, ?_, ?_, ?_, ?_⟩
              · exact fun closed => absurd closed (by simp [latch])
              · rintro after flow ⟨rfl⟩
                refine ⟨rfl, undecided, ?_, fun opened => absurd opened (by simp [applyWrite]),
                  fun _ => rfl, fun _ _ => broken⟩
                simp [applyWrite, total]
              · intro error wrong
                cases wrong
              · intro wrong
                cases wrong
      | failed error =>
          refine ⟨written.consumed, written.onlyWrites, written.ordered,
            written.taken, ?_, ?_, ?_, ?_⟩
          · exact fun closed => absurd closed (by simp [latch])
          · intro after flow wrong
            cases wrong
          · rintro error' ⟨rfl⟩
            exact written.failed error ending
          · intro wrong
            cases wrong
      | waiting =>
          refine ⟨written.consumed, written.onlyWrites, written.ordered,
            written.taken, ?_, ?_, ?_, ?_⟩
          · exact fun closed => absurd closed (by simp [latch])
          · intro after flow wrong
            cases wrong
          · intro error wrong
            cases wrong
          · exact fun _ => ⟨latch, written.waiting ending⟩

/-- What the loop comes to from a given state. -/
structure Faithful (state : PumpState) (reads : List ReadReply)
    (writes : List WriteReply) (run : Pumped) : Prop where
  consumedReads : run.log.filterMap Event.readReply ++ run.reads = reads
  consumedWrites : run.log.filterMap Event.writeReply ++ run.writes = writes
  delivered : accepted run.log <+: received run.log
  ordered : run.log.Pairwise Event.Allows
  drains : state.writerOpen = false → OnlyReads run.log
  returned : ∀ total, run.outcome = .returned total →
    total = saturatingAdd state.totalWritten (accepted run.log).length ∧
      conclusion run.log = some (.ok ())
  /-- While the pipe holds, all that was read is written. -/
  whole : ∀ total, run.outcome = .returned total → state.writerOpen = true →
    (∀ event ∈ run.log, event.breaksPipe = false) → accepted run.log = received run.log
  failed : ∀ error, run.outcome = .failed error →
    conclusion run.log = some (.error error)
  waiting : run.outcome = .waiting →
    conclusion run.log = none ∧
      (run.reads = [] ∨
        state.writerOpen = true ∧ run.writes = [] ∧ Passing run.log)

/-- A run that ends before anything is written in this iteration. -/
theorem Faithful.ofReads {state : PumpState} {reads : List ReadReply}
    {capacity : Nat} {filled : Stretch ReadReply (List UInt8)}
    (read : ReadsChunk capacity reads filled) (writes : List WriteReply)
    {outcome : Outcome Nat}
    (returned : ∀ total, outcome = .returned total →
      total = saturatingAdd state.totalWritten 0 ∧
        conclusion filled.log = some (.ok ()) ∧ received filled.log = [])
    (failed : ∀ error, outcome = .failed error →
      conclusion filled.log = some (.error error))
    (waiting : outcome = .waiting → conclusion filled.log = none ∧ filled.rest = []) :
    Faithful state reads writes ⟨outcome, filled.log, filled.rest, writes⟩ := by
  have none := read.onlyReads.accepted
  refine
    { consumedReads := read.consumed
      consumedWrites := by simp [read.onlyReads.writeReplies]
      delivered := by simp [none]
      ordered := read.ordered
      drains := fun _ => read.onlyReads
      returned := fun total ended => ?_
      whole := fun total ended _ _ => none.trans (returned total ended).2.2.symm
      failed := failed
      waiting := fun waits => ⟨(waiting waits).1, .inl (waiting waits).2⟩ }
  obtain ⟨counted, finished, -⟩ := returned total ended
  exact ⟨by rw [counted, none, List.length_nil], finished⟩

theorem pairwise_append_of_undecided {first second : List Event}
    (ordered : first.Pairwise Event.Allows)
    (undecided : ∀ event ∈ first, event.verdict = none)
    (next : second.Pairwise Event.Allows) (reads : OnlyReads second) :
    (first ++ second).Pairwise Event.Allows := by
  apply List.pairwise_append.mpr
  refine ⟨ordered, next, fun earlier member later after => ?_⟩
  exact ⟨undecided earlier member, fun _ => reads later after⟩

theorem conclusion_append_of_undecided {first : List Event}
    (undecided : ∀ event ∈ first, event.verdict = none) (second : List Event) :
    conclusion (first ++ second) = conclusion second := by
  unfold conclusion
  rw [List.getLast?_append]
  cases ending : second.getLast? with
  | some last => rfl
  | none =>
      apply Option.bind_eq_none_iff.mpr
      exact fun event last => undecided event (List.mem_of_getLast? last)

/-- An iteration that wrote and whose write is where the run ends. -/
theorem Faithful.ofWrite {state : PumpState} {capacity : Nat} {chunk : List UInt8}
    {reads : List ReadReply} {writes : List WriteReply}
    {filled : Stretch ReadReply (List UInt8)}
    {advanced : Stretch WriteReply (PumpState × Flow)} {outcome : Outcome Nat}
    (read : ReadsChunk capacity reads filled)
    (got : received filled.log = chunk) (passing : Passing filled.log)
    (wrote : Advances state chunk writes advanced)
    (unfinished : ∀ total, outcome ≠ .returned total)
    (failed : ∀ error, outcome = .failed error → advanced.outcome = .failed error)
    (waiting : outcome = .waiting → advanced.outcome = .waiting) :
    Faithful state reads writes
      ⟨outcome, filled.log ++ advanced.log, filled.rest, advanced.rest⟩ := by
  refine
    { consumedReads := ?consumedReads
      consumedWrites := ?consumedWrites
      delivered := ?delivered
      ordered := passing.pairwise wrote.ordered
      drains := fun closed => ?drains
      returned := fun total ended => absurd ended (unfinished total)
      whole := fun total ended => absurd ended (unfinished total)
      failed := fun error ended => ?failed
      waiting := fun waits => ?waiting }
  case consumedReads =>
    simp [wrote.onlyWrites.readReplies, read.consumed]
  case consumedWrites =>
    simp [read.onlyReads.writeReplies, wrote.consumed]
  case delivered =>
    simpa [read.onlyReads.accepted, wrote.onlyWrites.received, got] using wrote.taken
  case drains =>
    simpa [wrote.drains closed] using read.onlyReads
  case failed =>
    exact (passing.conclusion_append _).trans (wrote.failed error (failed error ended))
  case waiting =>
    obtain ⟨opened, rest, quiet⟩ := wrote.waiting (waiting waits)
    have all := passing.append quiet
    exact ⟨all.conclusion, .inr ⟨opened, rest, all⟩⟩

theorem Faithful.further {state after : PumpState} {capacity : Nat}
    {chunk : List UInt8} {flow : Flow} {reads : List ReadReply}
    {writes : List WriteReply} {filled : Stretch ReadReply (List UInt8)}
    {advanced : Stretch WriteReply (PumpState × Flow)} {run : Pumped}
    (read : ReadsChunk capacity reads filled)
    (got : received filled.log = chunk) (passing : Passing filled.log)
    (wrote : Advances state chunk writes advanced)
    (continued : advanced.outcome = .returned (after, flow))
    (rest : Faithful after filled.rest advanced.rest run) :
    Faithful state reads writes (run.afterAll (filled.log ++ advanced.log)) := by
  obtain ⟨-, undecided, total, opened, closes, breaks⟩ := wrote.continued after flow continued
  have earlier : ∀ event ∈ filled.log ++ advanced.log, event.verdict = none := by
    intro event member
    cases List.mem_append.mp member with
    | inl member => exact (passing event member).undecided
    | inr member => exact undecided event member
  have sameEnd := conclusion_append_of_undecided earlier run.log
  have before : accepted (filled.log ++ advanced.log) = accepted advanced.log := by
    simp [read.onlyReads.accepted]
  have source : received (filled.log ++ advanced.log) = chunk := by
    simp [wrote.onlyWrites.received, got]
  refine
    { consumedReads := ?consumedReads
      consumedWrites := ?consumedWrites
      delivered := ?delivered
      ordered := ?ordered
      drains := fun closed => ?drains
      returned := fun result ended => ?returned
      whole := fun result ended latch unbroken => ?whole
      failed := fun error ended => sameEnd.trans (rest.failed error ended)
      waiting := fun waits => ?waiting }
  case consumedReads =>
    simp [wrote.onlyWrites.readReplies, List.append_assoc, rest.consumedReads,
      read.consumed]
  case consumedWrites =>
    simp [read.onlyReads.writeReplies, List.append_assoc, rest.consumedWrites,
      wrote.consumed]
  case delivered =>
    rw [Pumped.afterAll_log, accepted_append, received_append, before, source]
    cases latch : after.writerOpen with
    | true =>
        rw [(opened latch).1]
        exact (List.prefix_append_right_inj _).mpr rest.delivered
    | false =>
        rw [(rest.drains latch).accepted, List.append_nil]
        exact wrote.taken.trans (List.prefix_append _ _)
  case ordered =>
    rw [Pumped.afterAll_log]
    cases latch : after.writerOpen with
    | true =>
        exact (passing.append (opened latch).2).pairwise rest.ordered
    | false =>
        exact pairwise_append_of_undecided (passing.pairwise wrote.ordered) earlier
          rest.ordered (rest.drains latch)
  case drains =>
    intro event member
    rw [Pumped.afterAll_log, wrote.drains closed, List.append_nil] at member
    cases List.mem_append.mp member with
    | inl member => exact read.onlyReads event member
    | inr member => exact rest.drains (closes closed) event member
  case returned =>
    obtain ⟨counted, finished⟩ := rest.returned result ended
    refine ⟨?_, sameEnd.trans finished⟩
    rw [counted, total, saturatingAdd_saturatingAdd, Pumped.afterAll_log,
      accepted_append, before, List.length_append]
  case whole =>
    rw [Pumped.afterAll_log] at unbroken
    cases held : after.writerOpen with
    | true =>
        have later := rest.whole result ended held fun event member =>
          unbroken event (by simp [member])
        rw [Pumped.afterAll_log, accepted_append, received_append, before, source,
          (opened held).1, later]
    | false =>
        obtain ⟨event, member, broken⟩ := breaks latch held
        have unbroken := unbroken event (by simp [member])
        cases unbroken.symm.trans broken
  case waiting =>
    obtain ⟨unfinished, exhausted⟩ := rest.waiting waits
    refine ⟨sameEnd.trans unfinished, exhausted.imp_right fun blocked => ?_⟩
    obtain ⟨latch, blocked, quiet⟩ := blocked
    refine ⟨?_, blocked, (passing.append (opened latch).2).append quiet⟩
    cases before : state.writerOpen with
    | true => rfl
    | false => simp [closes before] at latch

theorem nonempty_of_advance {state : PumpState} {chunk : List UInt8}
    {writeOnce : List WriteReply → Stretch WriteReply WriteEvent}
    {writes : List WriteReply}
    (goes : (advance state chunk.length writeOnce writes).outcome ≠
      .returned (state, .stop)) : chunk ≠ [] := by
  rintro rfl
  exact goes rfl

theorem pumpLoop_faithful (buffer : List UInt8) (state : PumpState)
    (reads : List ReadReply) (writes : List WriteReply)
    (small : buffer.length ≤ Streams.maxBufferSize) (bounded : state.totalWritten ≤ u64Max) :
    Faithful state reads writes (pumpLoop buffer state reads writes) := by
  have zero := saturatingAdd_zero bounded
  fun_induction pumpLoop buffer state reads writes with
  | case1 buffer state reads writes filled waits =>
      have read := readRawFdWith_readsChunk buffer.length reads
      obtain ⟨rest, quiet⟩ := read.waiting waits
      refine .ofReads read writes ?_ ?_ fun _ => ⟨quiet.conclusion, rest⟩
      · intro total wrong
        cases wrong
      · intro error wrong
        cases wrong
  | case2 buffer state reads writes filled error failed =>
      have read := readRawFdWith_readsChunk buffer.length reads
      refine .ofReads read writes ?_ ?_ ?_
      · intro total wrong
        cases wrong
      · rintro error' ⟨rfl⟩
        exact read.failed error failed
      · intro wrong
        cases wrong
  | case3 buffer state reads writes filled bytes returned readInto advanced made waits =>
      have read := readRawFdWith_readsChunk buffer.length reads
      have nonempty : bytes ≠ [] :=
        nonempty_of_advance fun stops => by cases waits.symm.trans stops
      obtain ⟨fits, got, passing⟩ := read.chunk bytes returned nonempty
      have wrote := advance_advances state writes small fits nonempty bounded
      refine .ofWrite read got passing wrote ?_ ?_ fun _ => waits
      · intro total wrong
        cases wrong
      · intro error wrong
        cases wrong
  | case4 buffer state reads writes filled bytes returned readInto advanced made error
      failed =>
      have read := readRawFdWith_readsChunk buffer.length reads
      have nonempty : bytes ≠ [] :=
        nonempty_of_advance fun stops => by cases failed.symm.trans stops
      obtain ⟨fits, got, passing⟩ := read.chunk bytes returned nonempty
      have wrote := advance_advances state writes small fits nonempty bounded
      refine .ofWrite read got passing wrote ?_ ?_ ?_
      · intro total wrong
        cases wrong
      · rintro error' ⟨rfl⟩
        exact failed
      · intro wrong
        cases wrong
  | case5 buffer state reads writes filled bytes returned readInto advanced made after
      stops =>
      have read := readRawFdWith_readsChunk buffer.length reads
      rcases eq_or_ne bytes [] with rfl | nonempty
      · obtain ⟨rfl⟩ := stops
        have nothing : made = filled.log := List.append_nil _
        rw [nothing]
        refine .ofReads read writes ?_ ?_ ?_
        · rintro total ⟨rfl⟩
          exact ⟨zero.symm, read.ended returned⟩
        · intro error wrong
          cases wrong
        · intro wrong
          cases wrong
      · obtain ⟨fits, -, -⟩ := read.chunk bytes returned nonempty
        have wrote := advance_advances state writes small fits nonempty bounded
        cases (wrote.continued after .stop stops).1
  | case6 buffer state reads writes filled bytes returned readInto advanced made after
      goes induction =>
      have read := readRawFdWith_readsChunk buffer.length reads
      have nonempty : bytes ≠ [] :=
        nonempty_of_advance fun stops => by cases goes.symm.trans stops
      obtain ⟨fits, got, passing⟩ := read.chunk bytes returned nonempty
      have wrote := advance_advances state writes small fits nonempty bounded
      have counted := (wrote.continued after .continue goes).2.2.1
      have bounded : after.totalWritten ≤ u64Max := by
        rw [counted]
        apply saturatingAdd_le
      apply Faithful.further read got passing wrote goes
      apply induction _ bounded (saturatingAdd_zero bounded)
      rw [length_overwrite fits]
      exact small

end Cuprum.Pump
