import Cuprum.Pump.Ends

namespace Cuprum.Pump

/-! What the calls of the copying pump come to between two ends. -/

/-- What asking for a chunk comes to. -/
inductive Got (ends : Ends) (capacity : Nat) : Outcome (List UInt8) → Ends → Prop
  | chunk {bytes rest : List UInt8} (nonempty : bytes ≠ []) (fits : bytes.length ≤ capacity)
      (input : ends.input = bytes ++ rest) :
      Got ends capacity (.returned bytes) { ends with input := rest }
  | eof (exhausted : ends.input = []) (ends_ : ends.ending = none) :
      Got ends capacity (.returned []) ends.finish
  | failed {kind : ErrorKind} (exhausted : ends.input = []) (fails : ends.ending = some kind) :
      Got ends capacity (.failed (.io kind)) ends.finish
  | waiting {after : Ends} : Got ends capacity .waiting after

theorem readRawFdWith_got {capacity : Nat} {replies : List ReadReply} {ends after : Ends}
    (served : ends.serveAll (readRawFdWith capacity replies).log = some after) :
    Got ends capacity (readRawFdWith capacity replies).outcome after := by
  induction replies using readRawFdWith.induct capacity with
  | case1 => exact .waiting
  | case2 bytes replies count valid =>
      simp only [readRawFdWith, valid, Ends.serveAll_singleton] at served ⊢
      cases bytes with
      | nil =>
          simp only [Ends.serve] at served
          split at served
          next exhausted =>
            cases served
            exact .eof exhausted.1 exhausted.2
          next => cases served
      | cons byte bytes =>
          simp only [Ends.serve] at served
          split at served
          next fits =>
            cases served
            exact .chunk (List.cons_ne_nil _ _) fits.2 (List.prefix_iff_eq_append.mp fits.1).symm
          next => cases served
  | case3 bytes replies kind invalid =>
      simp only [readRawFdWith, invalid, Ends.serveAll_singleton] at served
      have large := (syscallResult_error invalid).2
      cases bytes with
      | nil => exact absurd large (Nat.not_lt_zero _)
      | cons byte bytes =>
          simp only [Ends.serve] at served
          rw [if_neg fun fits => Nat.not_le_of_lt large fits.2] at served
          cases served
  | case4 replies induction =>
      simp only [readRawFdWith, Stretch.after_log, Ends.serveAll_cons] at served
      obtain ⟨middle, first, others⟩ := served
      cases first
      exact induction others
  | case5 kind replies persistent =>
      simp only [readRawFdWith, Ends.serveAll_singleton] at served ⊢
      cases kind with
      | interrupted => exact absurd rfl persistent
      | _ =>
          simp only [Ends.serve] at served
          split at served
          next exhausted =>
            cases served
            exact .failed exhausted.1 exhausted.2
          next => cases served

/-- What writing a chunk comes to, `already` of it having been written. -/
inductive Wrote (ends : Ends) (chunk : List UInt8) (already : Nat) :
    Outcome WriteOutcome → Ends → Prop
  | whole {after : Ends} (accepted : ends.accept chunk = some after) :
      Wrote ends chunk already (.returned (.complete (already + chunk.length))) after
  | broken {left : Nat} {kind : ErrorKind} {after : Ends}
      (room : ends.room = some (left, kind)) (nonfatal : isNonfatalWrite (.io kind) = true)
      (short : left < chunk.length) (accepted : ends.accept (chunk.take left) = some after) :
      Wrote ends chunk already (.returned (.nonFatalShortWrite (already + left))) after
  | failed {left : Nat} {kind : ErrorKind} {after : Ends}
      (room : ends.room = some (left, kind)) (fatal : isNonfatalWrite (.io kind) = false)
      (short : left < chunk.length) (accepted : ends.accept (chunk.take left) = some after) :
      Wrote ends chunk already (.failed (.io kind)) after
  | waiting {after : Ends} : Wrote ends chunk already .waiting after

/-- What is written of a chunk first and what of the rest of it afterwards. -/
theorem Wrote.again {ends middle after : Ends} {chunk : List UInt8} {already written : Nat}
    {outcome : Outcome WriteOutcome} (within : written ≤ chunk.length)
    (accepted : ends.accept (chunk.take written) = some middle)
    (wrote : Wrote middle (chunk.drop written) (already + written) outcome after) :
    Wrote ends chunk already outcome after := by
  have both : ∀ {more : List UInt8} {last : Ends}, middle.accept more = some last →
      ends.accept (chunk.take written ++ more) = some last := by
    intro more last accepts
    rw [ends.accept_append, accepted]
    exact accepts
  have roomier : ∀ {left : Nat} {kind : ErrorKind}, middle.room = some (left, kind) →
      ends.room = some (written + left, kind) := by
    intro left kind room
    unfold Ends.accept at accepted
    split at accepted
    next unlimited =>
      cases accepted
      cases unlimited.symm.trans room
    next before other limited =>
      split at accepted
      next fits =>
        cases accepted
        obtain ⟨rfl, rfl⟩ := Prod.mk.inj (Option.some.inj room)
        rw [List.length_take_of_le within] at fits
        rw [limited, List.length_take_of_le within, Nat.add_sub_cancel' fits]
      next => cases accepted
  have taken : ∀ left : Nat, chunk.take (written + left) =
      chunk.take written ++ (chunk.drop written).take left :=
    fun left => List.take_add
  cases wrote with
  | whole accepts =>
      have all := both accepts
      rw [List.take_append_drop] at all
      have same : already + chunk.length =
          already + written + (chunk.drop written).length := by
        rw [List.length_drop]
        omega
      rw [← same]
      exact .whole all
  | @broken left kind _ room nonfatal short accepts =>
      rw [Nat.add_assoc]
      rw [List.length_drop] at short
      refine .broken (roomier room) nonfatal (by omega) ?_
      rw [taken]
      exact both accepts
  | @failed left kind _ room fatal short accepts =>
      rw [List.length_drop] at short
      refine .failed (roomier room) fatal (by omega) ?_
      rw [taken]
      exact both accepts
  | waiting => exact .waiting

theorem Wrote.refused {ends : Ends} {chunk : List UInt8} {kind : ErrorKind}
    (room : ends.room = some (0, kind)) (nonempty : chunk ≠ []) (already : Nat) :
    Wrote ends chunk already (mapShortWriteError kind already) ends := by
  have short := List.length_pos_iff.mpr nonempty
  have nothing : ends.accept (chunk.take 0) = some ends := ends.accept_nil
  unfold mapShortWriteError
  split
  next nonfatal => exact .broken room nonfatal short nothing
  next fatal => exact .failed room (Bool.eq_false_iff.mpr fatal) short nothing

theorem Wrote.nothing (ends : Ends) (already : Nat) :
    Wrote ends [] already (.returned (.complete already)) ends :=
  .whole ends.accept_nil

theorem writeAllUnixWith_wrote {chunk : List UInt8} {already : Nat}
    {replies : List WriteReply} (bounded : already + chunk.length ≤ u64Max)
    {ends after : Ends}
    (served : ends.serveAll (writeAllUnixWith chunk already replies).log = some after) :
    Wrote ends chunk already (writeAllUnixWith chunk already replies).outcome after := by
  induction chunk, already, replies using writeAllUnixWith.induct generalizing ends with
  | case1 chunk already empty =>
      simp only [writeAllUnixWith, if_pos empty, Ends.serveAll_nil] at served ⊢
      subst served
      rw [List.isEmpty_iff.mp empty]
      exact .nothing ends already
  | case2 chunk already nonempty =>
      simp only [writeAllUnixWith, if_neg nonempty]
      exact .waiting
  | case3 chunk already reply replies empty =>
      simp only [writeAllUnixWith, if_pos empty, Ends.serveAll_nil] at served ⊢
      subst served
      rw [List.isEmpty_iff.mp empty]
      exact .nothing ends already
  | case4 chunk already reply replies nonempty written valid positive tail newTotal
      progress induction =>
      cases reply with
      | error kind => cases valid
      | ok count =>
          obtain ⟨rfl, fits⟩ := syscallResult_ok valid
          rw [recordWriteProgress_eq fits bounded] at progress
          obtain ⟨rfl, rfl⟩ := Prod.mk.inj (Except.ok.inj progress)
          simp only [writeAllUnixWith, if_neg nonempty, valid, if_pos positive,
            recordWriteProgress_eq fits bounded, Stretch.after_log, Stretch.after_outcome,
            Ends.serveAll_cons] at served ⊢
          obtain ⟨middle, first, others⟩ := served
          simp only [Ends.serve, positive, fits, and_self, if_true] at first
          have left : already + written + (chunk.drop written).length ≤ u64Max := by
            rw [List.length_drop]
            omega
          exact .again fits first (induction left others)
  | case5 chunk already reply replies nonempty written valid positive error progress =>
      cases reply with
      | error kind => cases valid
      | ok count =>
          obtain ⟨rfl, fits⟩ := syscallResult_ok valid
          rw [recordWriteProgress_eq fits bounded] at progress
          cases progress
  | case6 chunk already reply replies nonempty written valid zero =>
      cases reply with
      | error kind => cases valid
      | ok count =>
          obtain ⟨rfl, fits⟩ := syscallResult_ok valid
          simp only [writeAllUnixWith, if_neg nonempty, valid, Ends.serveAll_singleton,
            Ends.serve, zero, false_and, if_false] at served
          cases served
  | case7 chunk already reply replies nonempty interrupted induction =>
      simp only [writeAllUnixWith, if_neg nonempty, interrupted, Stretch.after_log,
        Stretch.after_outcome, Ends.serveAll_cons] at served ⊢
      obtain ⟨middle, first, others⟩ := served
      cases reply with
      | ok count => cases (syscallResult_error interrupted).1
      | error kind =>
          obtain rfl : kind = .interrupted := Except.error.inj interrupted
          cases first
          exact induction bounded others
  | case8 chunk already reply replies nonempty kind persistent invalid =>
      simp only [writeAllUnixWith, if_neg nonempty, invalid, Ends.serveAll_singleton]
        at served ⊢
      cases reply with
      | ok count =>
          have large := (syscallResult_error invalid).2
          simp only [Ends.serve] at served
          rw [if_neg fun fits => Nat.not_le_of_lt large fits.2] at served
          cases served
      | error other =>
          obtain rfl : other = kind := Except.error.inj invalid
          have same : ends.room = some (0, other) ∧ ends = after := by
            cases other with
            | interrupted => exact absurd rfl persistent
            | _ => simpa [Ends.serve] using served
          obtain ⟨room, rfl⟩ := same
          exact .refused room (mt List.isEmpty_iff.mpr nonempty) already

namespace Ends

variable {ends after last : Ends} {bytes rest : List UInt8} {kind : ErrorKind}
  {total : Nat} {outcome : Outcome Nat}

/-- What a writer takes has nothing to do with what the reader still has. -/
theorem accept_of_read (accepted : { ends with input := rest }.accept bytes = some after) :
    ∃ taken, ends.accept bytes = some taken ∧ after = { taken with input := rest } := by
  unfold accept at accepted ⊢
  cases room : ends.room with
  | none =>
      simp only [room] at accepted
      cases accepted
      exact ⟨_, rfl, rfl⟩
  | some limit =>
      simp only [room] at accepted
      split at accepted
      next fits =>
        cases accepted
        exact ⟨_, if_pos fits, rfl⟩
      next => cases accepted

theorem deliverable_broken (room : ends.room = some (0, kind))
    (nonfatal : isNonfatalWrite (.io kind) = true) :
    ends.deliverable = [] ∧ ends.failure = none := by
  simp [deliverable, failure, room, nonfatal]

theorem transfers_of_broken (room : ends.room = some (0, kind))
    (nonfatal : isNonfatalWrite (.io kind) = true)
    (further : Transfers { ends with input := rest } last total outcome) :
    Transfers ends last total outcome := by
  obtain ⟨nothing, sound⟩ := deliverable_broken room nonfatal
  have next : ({ ends with input := rest } : Ends).room = some (0, kind) := room
  obtain ⟨nothing', sound'⟩ := deliverable_broken next nonfatal
  refine ⟨?_, ?_, ?_⟩
  · rw [further.delivered, nothing, nothing']
  · rw [further.outcome, verdict, verdict, sound, sound']
  · rw [further.drained, sound, sound']

theorem room_accept {left : Nat} (room : ends.room = some (left, kind))
    (full : bytes.length = left) (accepted : ends.accept bytes = some after) :
    after.room = some (0, kind) := by
  simp only [accept, room, full, Nat.le_refl, if_true, Nat.sub_self] at accepted
  cases accepted
  rfl

theorem transfers_of_failed {left : Nat} (room : ends.room = some (left, kind))
    (fatal : isNonfatalWrite (.io kind) = false) (short : left < bytes.length)
    (input : ends.input = bytes ++ rest)
    (accepted : ends.accept (bytes.take left) = some after) :
    Transfers ends { after with input := rest } total (.failed (.io kind)) := by
  have split : ends.input = bytes.take left ++ (bytes.drop left ++ rest) := by
    rw [← List.append_assoc, List.take_append_drop, input]
  obtain ⟨_, _, _, given, drained⟩ := accept_some accepted split
  have fails : ends.failure = some kind := by
    have before : left < ends.input.length := by
      rw [input, List.length_append]
      omega
    simp [failure, room, before, fatal]
  refine ⟨?_, ?_, ?_⟩
  · have same : ends.deliverable = bytes.take left := by
      simp [deliverable, room, input, List.take_append_of_le_length (Nat.le_of_lt short)]
    rw [same]
    exact given
  · rw [verdict, fails]
  · rw [fails]
    simpa using drained

end Ends

def Copies (state : PumpState) (ends last : Ends) (outcome : Outcome Nat) : Prop :=
  Transfers ends last (saturatingAdd state.totalWritten ends.deliverable.length) outcome

def Latched (state : PumpState) (ends : Ends) : Prop :=
  state.writerOpen = false →
    ∃ kind, ends.room = some (0, kind) ∧ isNonfatalWrite (.io kind) = true

theorem Copies.of_accept {state next : PumpState} {ends after last : Ends}
    {bytes rest : List UInt8} {outcome : Outcome Nat}
    (accepted : ends.accept bytes = some after) (input : ends.input = bytes ++ rest)
    (counted : next.totalWritten = saturatingAdd state.totalWritten bytes.length)
    (further : Copies next { after with input := rest } last outcome) :
    Copies state ends last outcome := by
  have transfers := Ends.transfers_of_accept accepted input further
  have same := (Ends.accept_some accepted input).1
  rwa [counted, saturatingAdd_saturatingAdd, ← List.length_append, ← same] at transfers

theorem Copies.of_broken {state : PumpState} {ends last : Ends} {rest : List UInt8}
    {kind : ErrorKind} {outcome : Outcome Nat} (room : ends.room = some (0, kind))
    (nonfatal : isNonfatalWrite (.io kind) = true)
    (further : Copies state { ends with input := rest } last outcome) :
    Copies state ends last outcome := by
  have transfers := Ends.transfers_of_broken room nonfatal further
  have next : ({ ends with input := rest } : Ends).room = some (0, kind) := room
  rw [(Ends.deliverable_broken next nonfatal).1] at transfers
  rw [Copies, (Ends.deliverable_broken room nonfatal).1]
  exact transfers

theorem Transfers.of_end {ends : Ends} (exhausted : ends.input = []) {total : Nat}
    {outcome : Outcome Nat}
    (ending : outcome =
      match ends.ending with
      | some kind => .failed (.io kind)
      | none => .returned total) :
    Transfers ends ends.finish total outcome := by
  have nothing : ends.deliverable = [] := by
    unfold Ends.deliverable
    split <;> simp [exhausted]
  have sound : ends.failure = none := by
    unfold Ends.failure
    split <;> simp [exhausted]
  refine ⟨?_, ?_, ?_⟩
  · rw [nothing, List.append_nil]
    rfl
  · rw [ending, Ends.verdict, sound]
    cases ends.ending <;> rfl
  · rw [sound]
    exact (Bool.or_true _).symm

theorem Copies.of_end {state : PumpState} (bounded : state.totalWritten ≤ u64Max) {ends : Ends}
    (exhausted : ends.input = []) {outcome : Outcome Nat}
    (ending : outcome =
      match ends.ending with
      | some kind => .failed (.io kind)
      | none => .returned state.totalWritten) :
    Copies state ends ends.finish outcome := by
  have nothing : ends.deliverable.length = 0 := by
    unfold Ends.deliverable
    split <;> simp [exhausted]
  rw [Copies, nothing, saturatingAdd_zero bounded]
  exact .of_end exhausted ending

/-- What an iteration comes to that has read a chunk. -/
inductive Advanced (state : PumpState) (ends : Ends) (chunk rest : List UInt8) :
    Outcome (PumpState × Flow) → Ends → Prop
  | further {next : PumpState} {after : Ends} (latched : Latched next after)
      (bounded : next.totalWritten ≤ u64Max)
      (copies : ∀ {last outcome}, Copies next after last outcome →
        Copies state ends last outcome) :
      Advanced state ends chunk rest (.returned (next, .continue)) after
  | failed {error : PumpError} {after : Ends}
      (copies : Copies state ends after (.failed error)) :
      Advanced state ends chunk rest (.failed error) after
  | waiting {after : Ends} : Advanced state ends chunk rest .waiting after

theorem advance_advanced {buffer chunk rest : List UInt8} {state : PumpState}
    {writes : List WriteReply} (small : buffer.length ≤ Streams.maxBufferSize)
    (fits : chunk.length ≤ buffer.length) (nonempty : chunk ≠ [])
    (bounded : state.totalWritten ≤ u64Max) {ends after : Ends}
    (latched : Latched state ends) (input : ends.input = chunk ++ rest)
    (served : ({ ends with input := rest } : Ends).serveAll
      (advance state chunk.length (writeChunk (overwrite buffer chunk) chunk.length)
        writes).log = some after) :
    Advanced state ends chunk rest
      (advance state chunk.length (writeChunk (overwrite buffer chunk) chunk.length)
        writes).outcome after := by
  have some : chunk.length ≠ 0 := fun empty => nonempty (List.length_eq_zero_iff.mp empty)
  cases latch : state.writerOpen with
  | false =>
      rw [advance_drained writes some latch] at served ⊢
      obtain rfl := Ends.serveAll_nil.mp served
      obtain ⟨kind, room, nonfatal⟩ := latched latch
      refine .further (fun _ => ⟨kind, room, nonfatal⟩) bounded ?_
      exact Copies.of_broken room nonfatal
  | true =>
      have within : 0 + chunk.length ≤ u64Max := by
        unfold Streams.maxBufferSize at small
        unfold u64Max
        omega
      simp only [advance, if_neg some, latch, if_true, writeChunk_overwrite fits,
        classifyWriteWith] at served ⊢
      have written : Wrote { ends with input := rest } chunk 0
          (writeAllUnixWith chunk 0 writes).outcome after := by
        apply writeAllUnixWith_wrote within
        revert served
        cases classifyWriteOutcome (writeAllUnixWith chunk 0 writes).outcome <;> exact id
      generalize (writeAllUnixWith chunk 0 writes).outcome = outcome at written ⊢
      cases written with
      | whole accepted =>
          obtain ⟨taken, taking, rfl⟩ := Ends.accept_of_read accepted
          refine .further ?_ (saturatingAdd_le _ _) (Copies.of_accept taking input ?_)
          · intro closed
            cases latch.symm.trans closed
          · exact congrArg (saturatingAdd state.totalWritten) (Nat.zero_add _)
      | @broken left kind after room nonfatal short accepted =>
          obtain ⟨taken, taking, rfl⟩ := Ends.accept_of_read accepted
          have exactly : (chunk.take left).length = left :=
            List.length_take_of_le (Nat.le_of_lt short)
          have before : ends.room = Option.some (left, kind) := room
          have full := Ends.room_accept before exactly taking
          refine .further (fun _ => ⟨kind, full, nonfatal⟩) (saturatingAdd_le _ _) ?_
          intro last outcome copies
          have split : ends.input = chunk.take left ++ (chunk.drop left ++ rest) := by
            rw [← List.append_assoc, List.take_append_drop, input]
          apply Copies.of_accept taking split _ (Copies.of_broken full nonfatal copies)
          rw [exactly]
          exact congrArg (saturatingAdd state.totalWritten) (Nat.zero_add _)
      | failed room fatal short accepted =>
          obtain ⟨taken, taking, rfl⟩ := Ends.accept_of_read accepted
          exact .failed (Ends.transfers_of_failed room fatal short input taking)
      | waiting => exact .waiting

/-- Whatever the answers of its ends, a copying pump that comes to an end has made the
transfer between them. -/
theorem pumpLoop_copies {buffer : List UInt8} {state : PumpState} {reads : List ReadReply}
    {writes : List WriteReply} (small : buffer.length ≤ Streams.maxBufferSize)
    (bounded : state.totalWritten ≤ u64Max) {ends last : Ends}
    (latched : Latched state ends)
    (served : ends.serveAll (pumpLoop buffer state reads writes).log = some last)
    (ended : (pumpLoop buffer state reads writes).outcome ≠ .waiting) :
    Copies state ends last (pumpLoop buffer state reads writes).outcome := by
  fun_induction pumpLoop buffer state reads writes generalizing ends with
  | case1 => exact absurd rfl ended
  | case2 buffer state reads writes filled error failed =>
      have got := readRawFdWith_got served
      rw [failed] at got
      cases got with
      | failed exhausted fails =>
          apply Copies.of_end bounded exhausted
          rw [fails]
  | case3 => exact absurd rfl ended
  | case4 buffer state reads writes filled bytes returned readInto advanced made error =>
      rename_i failed
      obtain ⟨middle, first, second⟩ := Ends.serveAll_append.mp served
      have got := readRawFdWith_got first
      rw [returned] at got
      cases got with
      | chunk nonempty fits input =>
          have went := advance_advanced small fits nonempty bounded latched input second
          rw [failed] at went
          cases went with
          | failed copies => exact copies
      | eof => cases failed
  | case5 buffer state reads writes filled bytes returned readInto advanced made after =>
      rename_i stops
      obtain ⟨middle, first, second⟩ := Ends.serveAll_append.mp served
      have got := readRawFdWith_got first
      rw [returned] at got
      cases got with
      | chunk nonempty fits input =>
          have went := advance_advanced small fits nonempty bounded latched input second
          rw [stops] at went
          cases went
      | eof exhausted ending =>
          obtain ⟨rfl⟩ := stops
          obtain rfl := Ends.serveAll_nil.mp second
          apply Copies.of_end bounded exhausted
          rw [ending]
  | case6 buffer state reads writes filled bytes returned readInto advanced made after
      goes =>
      rename_i induction
      rw [Pumped.afterAll_log] at served
      obtain ⟨middle, before, further⟩ := Ends.serveAll_append.mp served
      obtain ⟨between, first, second⟩ := Ends.serveAll_append.mp before
      have got := readRawFdWith_got first
      rw [returned] at got
      cases got with
      | chunk nonempty fits input =>
          have went := advance_advanced small fits nonempty bounded latched input second
          rw [goes] at went
          cases went with
          | further latched bounded copies =>
              apply copies
              apply induction _ bounded latched further ended
              rw [length_overwrite fits]
              exact small
      | eof => cases goes

theorem pumpStreamWithIo_copies {reserve : Nat → Bool} {size : Streams.BufferSize}
    {reads : List ReadReply} {writes : List WriteReply}
    (granted : reserve size.value = true) {ends last : Ends}
    (served : ends.serveAll (pumpStreamWithIo reserve size reads writes).log = some last)
    (ended : (pumpStreamWithIo reserve size reads writes).outcome ≠ .waiting) :
    Transfers ends last (min ends.deliverable.length u64Max)
      (pumpStreamWithIo reserve size reads writes).outcome := by
  simp only [pumpStreamWithIo, Streams.allocateBuffer, granted, if_true] at served ended ⊢
  have small : (List.replicate size.value (0 : UInt8)).length ≤ Streams.maxBufferSize := by
    rw [List.length_replicate]
    exact size.capped
  have opened : Latched .start ends := by
    intro closed
    cases closed
  have copies := pumpLoop_copies small (Nat.zero_le _) opened served ended
  rwa [Copies, saturatingAdd, PumpState.start, Nat.zero_add] at copies

end Cuprum.Pump
