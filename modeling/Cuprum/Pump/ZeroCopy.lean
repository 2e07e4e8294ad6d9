import Cuprum.Pump.Copy
import Cuprum.Pump.Delivery
import Cuprum.Pump.Splice

namespace Cuprum.Pump

namespace Ends

/-- The ends after a call of the zero-copy pump: a splice moves what comes next as far as
the writer has room, and its error is that of either end, or the refusal to splice at
all. -/
def serveCall (ends : Ends) : SpliceCall → Option Ends
  | .io event => ends.serve event
  | .splice _ (.ok 0) =>
      if ends.input = [] ∧ ends.ending = none then some ends.finish else none
  | .splice length (.ok (moved + 1)) =>
      if moved + 1 ≤ length ∧ moved + 1 ≤ ends.input.length then
        (ends.accept (ends.input.take (moved + 1))).map fun after =>
          { after with input := ends.input.drop (moved + 1) }
      else none
  | .splice _ (.error .interrupted) => some ends
  | .splice _ (.error kind) =>
      if ends.input = [] ∧ ends.ending = some kind then some ends.finish
      else if ends.room = some (0, kind) ∨ kind = einval ∧ ends.delivered = [] then some ends
      else none

def serveCalls (ends : Ends) (log : List SpliceCall) : Option Ends :=
  log.foldlM serveCall ends

theorem serveCalls_cons {ends after : Ends} {call : SpliceCall} {log : List SpliceCall} :
    ends.serveCalls (call :: log) = some after ↔
      ∃ middle, ends.serveCall call = some middle ∧ middle.serveCalls log = some after := by
  rw [serveCalls, List.foldlM_cons]
  exact Option.bind_eq_some_iff

theorem serveCalls_append {ends after : Ends} {first second : List SpliceCall} :
    ends.serveCalls (first ++ second) = some after ↔
      ∃ middle, ends.serveCalls first = some middle ∧
        middle.serveCalls second = some after := by
  rw [serveCalls, List.foldlM_append]
  exact Option.bind_eq_some_iff

theorem serveCalls_singleton {ends after : Ends} {call : SpliceCall} :
    ends.serveCalls [call] = some after ↔ ends.serveCall call = some after := by
  simp [serveCalls]

theorem serveCalls_io (ends : Ends) (log : List Event) :
    ends.serveCalls (log.map .io) = ends.serveAll log := by
  rw [serveCalls, List.foldlM_map]
  rfl

end Ends

/-- What a splice comes to between two ends. -/
inductive Moved (ends : Ends) : Outcome Nat → Ends → Prop
  | some {bytes rest : List UInt8} {after : Ends} {moved : Nat}
      (count : bytes.length = moved + 1) (input : ends.input = bytes ++ rest)
      (accepted : ends.accept bytes = some after) :
      Moved ends (.returned (moved + 1)) { after with input := rest }
  | eof (exhausted : ends.input = []) (ends_ : ends.ending = none) :
      Moved ends (.returned 0) ends.finish
  | reader {kind : ErrorKind} (exhausted : ends.input = [])
      (fails : ends.ending = .some kind) : Moved ends (.failed (.io kind)) ends.finish
  | writer {kind : ErrorKind} (room : ends.room = .some (0, kind)) :
      Moved ends (.failed (.io kind)) ends
  | unsupported (untouched : ends.delivered = []) : Moved ends (.failed (.io einval)) ends
  | waiting {after : Ends} : Moved ends .waiting after

theorem spliceOnceWith_moved {length : Nat} {replies : List SpliceReply} {ends after : Ends}
    (served : ends.serveCalls (spliceOnceWith length replies).log = some after) :
    Moved ends (spliceOnceWith length replies).outcome after := by
  induction replies with
  | nil => exact .waiting
  | cons reply replies induction =>
      rw [spliceOnceWith] at served ⊢
      split at served
      next moved valid =>
        have call := Ends.serveCalls_singleton.mp served
        cases reply with
        | error kind => cases valid
        | ok count =>
            obtain ⟨rfl, fits⟩ := syscallResult_ok valid
            cases moved with
            | zero =>
                simp only [Ends.serveCall] at call
                split at call
                next exhausted =>
                  cases call
                  exact .eof exhausted.1 exhausted.2
                next => cases call
            | succ moved =>
                simp only [Ends.serveCall] at call
                split at call
                next within =>
                  obtain ⟨taken, accepted, rfl⟩ := Option.map_eq_some_iff.mp call
                  exact .some (List.length_take_of_le within.2)
                    (List.take_append_drop _ _).symm accepted
                next => cases call
      next interrupted =>
        obtain ⟨middle, first, others⟩ := Ends.serveCalls_cons.mp served
        cases reply with
        | ok count => cases (syscallResult_error interrupted).1
        | error kind =>
            obtain rfl : kind = .interrupted := Except.error.inj interrupted
            cases first
            exact induction others
      next kind persistent invalid =>
        have call := Ends.serveCalls_singleton.mp served
        cases reply with
        | ok count =>
            have large := (syscallResult_error invalid).2
            cases count with
            | zero => exact absurd large (Nat.not_lt_zero _)
            | succ moved =>
                simp only [Ends.serveCall] at call
                rw [if_neg fun within => Nat.not_le_of_lt large within.1] at call
                cases call
        | error other =>
            obtain rfl : other = kind := Except.error.inj invalid
            have same : (if ends.input = [] ∧ ends.ending = some other then some ends.finish
                else if ends.room = some (0, other) ∨ other = einval ∧ ends.delivered = [] then
                  some ends
                else none) = some after := by
              cases other with
              | interrupted => exact absurd rfl persistent
              | _ => exact call
            split at same
            next exhausted =>
              cases same
              exact .reader exhausted.1 exhausted.2
            next =>
              split at same
              next refused =>
                cases same
                rcases refused with room | ⟨rfl, untouched⟩
                · exact .writer room
                · exact .unsupported untouched
              next => cases same

theorem Ends.finish_eq {ends : Ends} (exhausted : ends.input = []) :
    ends.finish = { ends with input := [], drained := true } := by
  rw [← exhausted]
  rfl

/-- A drain that comes to an end has read to the end of the reader. -/
theorem drainLoop_drains {capacity : Nat} {reads : List ReadReply} {ends last : Ends}
    (served : ends.serveAll (drainLoop capacity reads).log = some last)
    (ended : (drainLoop capacity reads).outcome ≠ .waiting) :
    last = { ends with input := [], drained := true } ∧
      (drainLoop capacity reads).outcome =
        match ends.ending with
        | some kind => .failed (.io kind)
        | none => .returned () := by
  fun_induction drainLoop capacity reads generalizing ends with
  | case1 => exact absurd rfl ended
  | case2 reads filled error =>
      rename_i failed
      have got := readRawFdWith_got served
      rw [failed] at got
      cases got with
      | failed exhausted fails =>
          refine ⟨Ends.finish_eq exhausted, ?_⟩
          rw [fails]
  | case3 reads filled bytes returned =>
      rename_i empty
      have got := readRawFdWith_got served
      rw [returned] at got
      cases got with
      | chunk nonempty => exact absurd (List.length_eq_zero_iff.mp empty) nonempty
      | eof exhausted ending =>
          refine ⟨Ends.finish_eq exhausted, ?_⟩
          rw [ending]
  | case4 reads filled bytes returned nonempty drained =>
      rename_i induction
      obtain ⟨middle, first, others⟩ := Ends.serveAll_append.mp served
      have got := readRawFdWith_got first
      rw [returned] at got
      cases got with
      | chunk _ _ input =>
          have further := induction others ended
          exact further
      | eof => exact absurd rfl nonempty

/-- A writer that fails with nothing left to write: only a splice is told of it. -/
structure Told (ends last : Ends) (outcome : Outcome Nat) (kind : ErrorKind) : Prop where
  room : ends.room = some (ends.input.length, kind)
  fatal : isNonfatalWrite (.io kind) = false
  outcome : outcome = .failed (.io kind)
  delivered : last.delivered = ends.delivered ++ ends.deliverable

/-- What splicing comes to that has counted `total` bytes. -/
structure Splices (total : Nat) (ends last : Ends) (outcome : Outcome Nat) : Prop where
  counts : total + ends.deliverable.length ≤ u64Max →
    Transfers ends last (total + ends.deliverable.length) outcome ∨
      ∃ kind, Told ends last outcome kind
  overflows : u64Max < total + ends.deliverable.length → outcome = .failed .lengthOverflow

namespace Splices

variable {total : Nat} {ends last : Ends} {outcome : Outcome Nat}

theorem of_transfers (bounded : total + ends.deliverable.length ≤ u64Max)
    (transfers : Transfers ends last (total + ends.deliverable.length) outcome) :
    Splices total ends last outcome :=
  ⟨fun _ => .inl transfers, fun more => absurd bounded (Nat.not_le_of_lt more)⟩

theorem of_end (bounded : total ≤ u64Max) (exhausted : ends.input = [])
    (ending : outcome =
      match ends.ending with
      | some kind => .failed (.io kind)
      | none => .returned total) : Splices total ends ends.finish outcome := by
  have nothing : total + ends.deliverable.length = total := by
    unfold Ends.deliverable
    split <;> simp [exhausted]
  apply of_transfers
  · rwa [nothing]
  · rw [nothing]
    exact .of_end exhausted ending

theorem of_accept {after : Ends} {bytes rest : List UInt8}
    (accepted : ends.accept bytes = some after) (input : ends.input = bytes ++ rest)
    (further : Splices (total + bytes.length) { after with input := rest } last outcome) :
    Splices total ends last outcome := by
  obtain ⟨same, _, _, given, _⟩ := Ends.accept_some accepted input
  have counted : total + bytes.length +
      ({ after with input := rest } : Ends).deliverable.length =
        total + ends.deliverable.length := by
    rw [same, List.length_append, Nat.add_assoc]
  refine ⟨?_, ?_⟩
  · intro bounded
    rw [← counted] at bounded
    rcases further.counts bounded with transfers | ⟨kind, told⟩
    · rw [counted] at transfers
      exact .inl (Ends.transfers_of_accept accepted input transfers)
    · refine .inr ⟨kind, ?_, told.fatal, told.outcome, ?_⟩
      · have room := told.room
        unfold Ends.accept at accepted
        split at accepted
        next unlimited =>
          cases accepted
          cases unlimited.symm.trans room
        next left other limited =>
          split at accepted
          next fits =>
            cases accepted
            obtain ⟨rest_, rfl⟩ := Prod.mk.inj (Option.some.inj room)
            have rest_ : left - bytes.length = rest.length := rest_
            rw [limited, input, List.length_append, ← rest_, Nat.add_sub_cancel' fits]
          next => cases accepted
      · rw [told.delivered, same, ← List.append_assoc]
        exact congrArg (· ++ _) given
  · intro more
    rw [← counted] at more
    exact further.overflows more

end Splices

theorem drainAfterBreak_transfers {total capacity : Nat} {reads : List ReadReply}
    {ends last : Ends}
    (served : ends.serveCalls (drainAfterBreak total (drainLoop capacity reads)).log =
      some last)
    (ended : (drainAfterBreak total (drainLoop capacity reads)).outcome ≠ .waiting) :
    last = { ends with input := [], drained := true } ∧
      (drainAfterBreak total (drainLoop capacity reads)).outcome =
        match ends.ending with
        | some kind => .failed (.io kind)
        | none => .returned total := by
  have logged : (drainAfterBreak total (drainLoop capacity reads)).log =
      (drainLoop capacity reads).log.map .io := by
    unfold drainAfterBreak
    split <;> rfl
  rw [logged, Ends.serveCalls_io] at served
  have finished : (drainLoop capacity reads).outcome ≠ .waiting := by
    intro waits
    apply ended
    simp only [drainAfterBreak, waits]
  obtain ⟨same, outcome⟩ := drainLoop_drains served finished
  refine ⟨same, ?_⟩
  unfold drainAfterBreak
  cases ending : ends.ending with
  | none => simp only [outcome, ending]
  | some kind => simp only [outcome, ending]

/-- The drain of the reader after a splice that found the writer broken. -/
theorem Splices.of_broken {total : Nat} (bounded : total ≤ u64Max) {ends : Ends}
    {kind : ErrorKind} (room : ends.room = some (0, kind))
    (nonfatal : isNonfatalWrite (.io kind) = true) {outcome : Outcome Nat}
    (ending : outcome =
      match ends.ending with
      | some kind => .failed (.io kind)
      | none => .returned total) :
    Splices total ends { ends with input := [], drained := true } outcome := by
  obtain ⟨nothing, sound⟩ := Ends.deliverable_broken room nonfatal
  have counted : total + ends.deliverable.length = total := by
    rw [nothing]
    rfl
  apply Splices.of_transfers
  · rwa [counted]
  · rw [counted]
    refine ⟨?_, ?_, ?_⟩
    · rw [nothing, List.append_nil]
    · rw [ending, Ends.verdict, sound]
      cases ends.ending <;> rfl
    · rw [sound]
      exact (Bool.or_true _).symm

/-- A splice that found the writer failing. -/
theorem Splices.of_refused {total : Nat} (bounded : total ≤ u64Max) {ends : Ends}
    {kind : ErrorKind} (room : ends.room = some (0, kind))
    (fatal : isNonfatalWrite (.io kind) = false) :
    Splices total ends ends (.failed (.io kind)) := by
  have nothing : ends.deliverable = [] := by
    simp [Ends.deliverable, room]
  have counted : total + ends.deliverable.length = total := by
    rw [nothing]
    rfl
  refine ⟨?_, ?_⟩
  · intro _
    by_cases exhausted : ends.input = []
    · refine .inr ⟨kind, ?_, fatal, rfl, ?_⟩
      · rw [room, exhausted]
        rfl
      · rw [nothing, List.append_nil]
    · have fails : ends.failure = some kind := by
        simp [Ends.failure, room, fatal, List.length_pos_iff.mpr exhausted]
      refine .inl ⟨?_, ?_, ?_⟩
      · rw [nothing, List.append_nil]
      · rw [Ends.verdict, fails]
      · rw [fails]
        exact (Bool.or_false _).symm
  · intro more
    rw [counted] at more
    exact absurd bounded (Nat.not_le_of_lt more)

/-- The first splice is not refused for the kind of descriptor it is given. -/
def Supported (ends : Ends) (outcome : Outcome Nat) : Prop :=
  outcome = .failed (.io einval) → ends.delivered ≠ []

/-- However the splices and the reads of the drain are answered. -/
theorem accumulateSplices_splices {length capacity total : Nat} {reads : List ReadReply}
    {once : SpliceOnce} (bounded : total ≤ u64Max)
    (moves : ∀ {ends after : Ends}, ends.serveCalls once.log = some after →
      Moved ends once.outcome after)
    {ends last : Ends} (supported : Supported ends once.outcome)
    (served : ends.serveCalls
      (accumulateSplices length (drainLoop capacity reads) total once).log = some last)
    (ended : (accumulateSplices length (drainLoop capacity reads) total once).outcome ≠
      .waiting) :
    Splices total ends last
      (accumulateSplices length (drainLoop capacity reads) total once).outcome := by
  fun_induction accumulateSplices length (drainLoop capacity reads) total once
    generalizing ends with
  | case1 => exact absurd rfl ended
  | case2 total once error failed nonfatal =>
      obtain ⟨middle, first, others⟩ := Ends.serveCalls_append.mp served
      have moved := moves first
      rw [failed] at moved
      obtain ⟨rfl, outcome⟩ := drainAfterBreak_transfers others ended
      cases moved with
      | reader exhausted fails =>
          have same := Ends.finish_eq exhausted
          have finished : { ends.finish with input := [], drained := true } = ends.finish :=
            same.symm
          rw [finished]
          exact .of_end bounded exhausted outcome
      | writer room => exact .of_broken bounded room nonfatal outcome
      | unsupported => cases nonfatal
  | case3 total once error failed fatal =>
      have moved := moves served
      rw [failed] at moved
      cases moved with
      | reader exhausted fails =>
          apply Splices.of_end bounded exhausted
          rw [fails]
      | writer room => exact .of_refused bounded room (Bool.eq_false_iff.mpr fatal)
      | unsupported untouched => exact absurd untouched (supported failed)
  | case4 total once eof =>
      have moved := moves served
      rw [eof] at moved
      cases moved with
      | eof exhausted ending =>
          apply Splices.of_end bounded exhausted
          rw [ending]
  | case5 total once moved counted =>
      rename_i overflowed
      have went := moves served
      rw [counted] at went
      have more : u64Max < total + (moved + 1) := by
        by_contra fits
        rw [checkedAdd, if_pos (Nat.le_of_not_lt fits)] at overflowed
        cases overflowed
      cases went with
      | @some bytes rest after _ count input accepted =>
          have same := (Ends.accept_some accepted input).1
          have longer : moved + 1 ≤ ends.deliverable.length := by
            rw [same, List.length_append, count]
            exact Nat.le_add_right _ _
          refine ⟨?_, fun _ => rfl⟩
          intro fits
          omega
  | case6 total once moved counted =>
      rename_i next added induction
      obtain ⟨middle, first, others⟩ := Ends.serveCalls_append.mp served
      have went := moves first
      rw [counted] at went
      unfold checkedAdd at added
      split at added
      next fits =>
        cases added
        cases went with
        | @some bytes rest after _ count input accepted =>
            have given := (Ends.accept_some accepted input).2.2.2.1
            apply Splices.of_accept accepted input
            rw [count]
            apply induction fits spliceOnceWith_moved _ others ended
            intro _ untouched
            have untouched : after.delivered = [] := untouched
            rw [given] at untouched
            rw [(List.append_eq_nil_iff.mp untouched).2] at count
            cases count
      next => cases added

/-- A transfer does not begin anew where the reader's end has been seen. -/
theorem Transfers.of_finish {ends last : Ends} (exhausted : ends.input = []) {total : Nat}
    {outcome : Outcome Nat} (transfers : Transfers ends.finish last total outcome) :
    Transfers ends last total outcome := by
  have sound : ends.failure = none := by
    unfold Ends.failure
    split <;> simp [exhausted]
  refine ⟨transfers.delivered, transfers.outcome, ?_⟩
  rw [transfers.drained, sound]
  exact (Bool.true_or _).trans (Bool.or_true _).symm

/-- A run splices throughout, or copies throughout. -/
theorem pumpStreamFiles_comes {reserve : Nat → Bool} {size : Streams.BufferSize}
    {splices : List SpliceReply} {reads : List ReadReply} {writes : List WriteReply}
    (granted : reserve size.value = true) {ends last : Ends}
    (served : ends.serveCalls (pumpStreamFiles reserve size splices reads writes).log =
      some last)
    (ended : (pumpStreamFiles reserve size splices reads writes).outcome ≠ .waiting) :
    Splices 0 ends last (pumpStreamFiles reserve size splices reads writes).outcome ∨
      Transfers ends last (min ends.deliverable.length u64Max)
        (pumpStreamFiles reserve size splices reads writes).outcome := by
  have spliced : ∀ {run : Spliced}, run = accumulateSplices size.value
      (drainReader reserve size.value reads) 0 (spliceOnceWith size.value splices) →
      Supported ends (spliceOnceWith size.value splices).outcome →
      ends.serveCalls run.log = some last → run.outcome ≠ .waiting →
        Splices 0 ends last run.outcome := by
    intro run same supported served ended
    subst same
    simp only [drainReader, Streams.allocateBuffer, granted, if_true] at served ended ⊢
    exact accumulateSplices_splices (Nat.zero_le _) spliceOnceWith_moved supported served ended
  unfold pumpStreamFiles trySplicePump at served ended ⊢
  dsimp only at served ended ⊢
  cases first : (spliceOnceWith size.value splices).outcome with
  | returned moved =>
      simp only [first] at served ended ⊢
      refine .inl (spliced rfl ?_ served ended)
      rw [first]
      intro refused
      cases refused
  | waiting =>
      simp only [first] at served ended ⊢
      refine .inl (spliced rfl ?_ served ended)
      rw [first]
      intro refused
      cases refused
  | failed error =>
      by_cases refused : isSpliceUnsupported error = true
      · simp only [first, if_pos refused] at served ended ⊢
        obtain ⟨middle, before, after⟩ := Ends.serveCalls_append.mp served
        rw [Ends.serveCalls_io] at after
        have copied := pumpStreamWithIo_copies granted after ended
        have moved := spliceOnceWith_moved before
        rw [first] at moved
        cases moved with
        | reader exhausted => exact .inr (.of_finish exhausted copied)
        | writer => exact .inr copied
        | unsupported => exact .inr copied
      · simp only [first, if_neg refused] at served ended ⊢
        refine .inl (spliced rfl ?_ served ended)
        rw [first]
        intro unsupported
        cases unsupported
        exact absurd rfl refused

/-- The zero-copy pump and the copying pump between the same two ends. -/
theorem splice_agrees_with_copy {reserve : Nat → Bool} {size : Streams.BufferSize}
    (granted : reserve size.value = true) {ends spliced copied : Ends}
    {splices : List SpliceReply} {reads reads' : List ReadReply}
    {writes writes' : List WriteReply}
    (served : ends.serveCalls (pumpStreamFiles reserve size splices reads writes).log =
      some spliced)
    (ended : (pumpStreamFiles reserve size splices reads writes).outcome ≠ .waiting)
    (servedCopy : ends.serveAll (pumpStreamWithIo reserve size reads' writes').log =
      some copied)
    (endedCopy : (pumpStreamWithIo reserve size reads' writes').outcome ≠ .waiting) :
    (ends.deliverable.length ≤ u64Max →
      spliced.delivered = ends.delivered ++ ends.deliverable ∧
      copied.delivered = ends.delivered ++ ends.deliverable ∧
      ((pumpStreamFiles reserve size splices reads writes).outcome =
          (pumpStreamWithIo reserve size reads' writes').outcome ∧
          spliced.drained = copied.drained ∨
        ∃ kind, ends.room = some (ends.input.length, kind) ∧
          isNonfatalWrite (.io kind) = false ∧
          (pumpStreamFiles reserve size splices reads writes).outcome =
            .failed (.io kind))) ∧
    (u64Max < ends.deliverable.length →
      (pumpStreamFiles reserve size splices reads writes).outcome =
          (pumpStreamWithIo reserve size reads' writes').outcome ∧
          spliced.delivered = copied.delivered ∧ spliced.drained = copied.drained ∨
        (pumpStreamFiles reserve size splices reads writes).outcome =
          .failed .lengthOverflow) := by
  have copy := pumpStreamWithIo_copies granted servedCopy endedCopy
  rcases pumpStreamFiles_comes granted served ended with run | run
  · have nought : 0 + ends.deliverable.length = ends.deliverable.length := Nat.zero_add _
    refine ⟨?_, ?_⟩
    · intro bounded
      have counts := run.counts
      rw [nought] at counts
      rw [Nat.min_eq_left bounded] at copy
      rcases counts bounded with transfers | ⟨kind, told⟩
      · exact ⟨transfers.delivered, copy.delivered,
          .inl ⟨transfers.outcome.trans copy.outcome.symm,
            transfers.drained.trans copy.drained.symm⟩⟩
      · exact ⟨told.delivered, copy.delivered,
          .inr ⟨kind, told.room, told.fatal, told.outcome⟩⟩
    · intro more
      rw [← nought] at more
      exact .inr (run.overflows more)
  · have same := run.outcome.trans copy.outcome.symm
    have given := run.delivered.trans copy.delivered.symm
    have drained := run.drained.trans copy.drained.symm
    exact ⟨fun _ => ⟨run.delivered, copy.delivered, .inl ⟨same, drained⟩⟩,
      fun _ => .inl ⟨same, given, drained⟩⟩

/-! Single bytes that nothing disturbs, moved and copied. -/

def steadySplices (count : Nat) : List SpliceReply := List.replicate count (.ok 1) ++ [.ok 0]

def zeros (count : Nat) (delivered : List UInt8) : Ends :=
  ⟨List.replicate count 0, none, none, delivered, false⟩

theorem spliceOnceWith_steady (count : Nat) :
    spliceOnceWith 1 (steadySplices (count + 1)) =
      ⟨.returned 1, [.splice 1 (.ok 1)], steadySplices count⟩ :=
  rfl

theorem accumulateSplices_steady (drain : Stretch ReadReply Unit) (count total : Nat)
    (delivered : List UInt8) :
    let run := accumulateSplices 1 drain total (spliceOnceWith 1 (steadySplices count))
    run.outcome ≠ .waiting ∧ ∃ last, (zeros count delivered).serveCalls run.log = some last := by
  induction count generalizing total delivered with
  | zero =>
      have stops : accumulateSplices 1 drain total (spliceOnceWith 1 (steadySplices 0)) =
          ⟨.returned total, [.splice 1 (.ok 0)]⟩ := by
        rw [accumulateSplices]
        rfl
      rw [stops]
      exact ⟨nofun, _, rfl⟩
  | succ count induction =>
      have served : ∀ more : List SpliceCall, (zeros (count + 1) delivered).serveCalls
          (.splice 1 (.ok 1) :: more) = (zeros count (delivered ++ [0])).serveCalls more := by
        intro more
        rfl
      rw [spliceOnceWith_steady, accumulateSplices.eq_def]
      dsimp only
      split
      next => exact ⟨by simp, _, rfl⟩
      next total _ =>
        obtain ⟨ended, last, further⟩ := induction total (delivered ++ [0])
        exact ⟨ended, last, (served _).trans further⟩

theorem pumpLoop_steady_served (count total : Nat) (delivered : List UInt8) :
    ∃ last, (zeros count delivered).serveAll
      (pumpLoop [0] ⟨total, true⟩ (steadyReads count) (steadyWrites count)).log = some last := by
  induction count generalizing total delivered with
  | zero =>
      rw [pumpLoop_eq]
      exact ⟨_, rfl⟩
  | succ count induction =>
      obtain ⟨last, further⟩ := induction (saturatingAdd total 1) (delivered ++ [0])
      have first := pumpLoop_oneByte total (steadyReads count) (steadyWrites count)
      refine ⟨last, ?_⟩
      refine (congrArg (fun run => (zeros (count + 1) delivered).serveAll run.log) first).trans ?_
      exact further

/-- A writer that fails with nothing left to write. -/
def fullDevice : Ends := ⟨[], none, some (0, .other 28), [], false⟩

theorem pumpStreamFiles_fullDevice :
    pumpStreamFiles (fun _ => true) oneByte [.error (.other 28)] [] [] =
      ⟨.failed (.io (.other 28)), [.splice 1 (.error (.other 28))]⟩ := by
  have first : spliceOnceWith 1 [.error (.other 28)] =
      ⟨.failed (.io (.other 28)), [.splice 1 (.error (.other 28))], []⟩ := rfl
  have stops : accumulateSplices 1 (drainReader (fun _ => true) 1 []) 0
      (spliceOnceWith 1 [.error (.other 28)]) =
        ⟨.failed (.io (.other 28)), [.splice 1 (.error (.other 28))]⟩ := by
    rw [first, accumulateSplices]
    rfl
  exact stops

theorem pumpStreamFiles_empty (reserve : Nat → Bool) :
    pumpStreamFiles reserve oneByte [.ok 0] [] [] =
      ⟨.returned 0, [.splice 1 (.ok 0)]⟩ := by
  have first : spliceOnceWith 1 [.ok 0] = ⟨.returned 0, [.splice 1 (.ok 0)], []⟩ := rfl
  have stops : accumulateSplices 1 (drainReader reserve 1 []) 0 (spliceOnceWith 1 [.ok 0]) =
      ⟨.returned 0, [.splice 1 (.ok 0)]⟩ := by
    rw [first, accumulateSplices]
  exact stops

theorem pumpStreamWithIo_empty :
    pumpStreamWithIo (fun _ => true) oneByte [.ok []] [] =
      ⟨.returned 0, [.read 1 (.ok [])], [], []⟩ := by
  change pumpLoop [0] .start [.ok []] [] = _
  rw [pumpLoop_eq]
  rfl

theorem splice_counts_no_further :
    let spliced := pumpStreamFiles (fun _ => true) oneByte
      (steadySplices 18446744073709551616) [] []
    let copied := pumpStreamWithIo (fun _ => true) oneByte (steadyReads 18446744073709551616)
      (steadyWrites 18446744073709551616)
    (∃ last, (zeros 18446744073709551616 []).serveCalls spliced.log = some last) ∧
      (∃ last, (zeros 18446744073709551616 []).serveAll copied.log = some last) ∧
      spliced.outcome = .failed .lengthOverflow ∧
      copied.outcome = .returned 18446744073709551615 := by
  obtain ⟨ended, spliced, served⟩ := accumulateSplices_steady
    (drainReader (fun _ => true) 1 []) 18446744073709551616 0 []
  obtain ⟨copied, servedCopy⟩ := pumpLoop_steady_served 18446744073709551616 0 []
  have supported : Supported (zeros 18446744073709551616 [])
      (spliceOnceWith 1 (steadySplices 18446744073709551616)).outcome := by
    intro refused
    cases refused
  have splices := accumulateSplices_splices (Nat.zero_le _) spliceOnceWith_moved supported
    served ended
  refine ⟨⟨spliced, served⟩, ⟨copied, servedCopy⟩, ?_, (pumpStreamWithIo_steady _).1⟩
  apply splices.overflows
  have length : (zeros 18446744073709551616 []).deliverable.length = 18446744073709551616 :=
    List.length_replicate
  rw [length]
  decide

/-- A splice is refused that would count one byte more than a `u64` holds, where the copying
pump counts no further; a splice is told of a writer that fails with nothing left to write,
where the copying pump writes nothing; and only the copying pump needs a buffer. -/
theorem splice_differs_from_copy :
    (let spliced := pumpStreamFiles (fun _ => true) oneByte
        (steadySplices 18446744073709551616) [] []
      let copied := pumpStreamWithIo (fun _ => true) oneByte
        (steadyReads 18446744073709551616) (steadyWrites 18446744073709551616)
      (∃ last, (zeros 18446744073709551616 []).serveCalls spliced.log = some last) ∧
        (∃ last, (zeros 18446744073709551616 []).serveAll copied.log = some last) ∧
        spliced.outcome = .failed .lengthOverflow ∧
        copied.outcome = .returned 18446744073709551615) ∧
    (let spliced := pumpStreamFiles (fun _ => true) oneByte [.error (.other 28)] [] []
      let copied := pumpStreamWithIo (fun _ => true) oneByte [.ok []] []
      (∃ last, fullDevice.serveCalls spliced.log = some last) ∧
        (∃ last, fullDevice.serveAll copied.log = some last) ∧
        spliced.outcome = .failed (.io (.other 28)) ∧ copied.outcome = .returned 0) ∧
    (pumpStreamFiles (fun _ => false) oneByte [.ok 0] [] []).outcome = .returned 0 ∧
      (pumpStreamWithIo (fun _ => false) oneByte [.ok []] []).outcome =
        .failed .bufferAllocationFailed := by
  refine ⟨splice_counts_no_further, ?_, ?_, rfl⟩
  · rw [pumpStreamFiles_fullDevice, pumpStreamWithIo_empty]
    exact ⟨⟨_, rfl⟩, ⟨_, rfl⟩, rfl, rfl⟩
  · rw [pumpStreamFiles_empty]

/-- Two bytes, spliced and copied. -/
theorem splice_agrees_with_copy_two :
    let spliced := pumpStreamFiles (fun _ => true) oneByte (steadySplices 2) [] []
    let copied := pumpStreamWithIo (fun _ => true) oneByte (steadyReads 2) (steadyWrites 2)
    ∃ last final, (zeros 2 []).serveCalls spliced.log = some last ∧
      (zeros 2 []).serveAll copied.log = some final ∧ last.delivered = [0, 0] ∧
        final.delivered = [0, 0] ∧ spliced.outcome = copied.outcome := by
  intro spliced copied
  obtain ⟨ended, last, served⟩ := accumulateSplices_steady
    (drainReader (fun _ => true) 1 []) 2 0 []
  obtain ⟨final, servedCopy⟩ := pumpLoop_steady_served 2 0 []
  have ended : spliced.outcome ≠ .waiting := ended
  have served : (zeros 2 []).serveCalls spliced.log = some last := served
  have servedCopy : (zeros 2 []).serveAll copied.log = some final := servedCopy
  have copies : copied.outcome = .returned 2 := (pumpStreamWithIo_steady 2).1
  have endedCopy : copied.outcome ≠ .waiting := by
    rw [copies]
    exact nofun
  obtain ⟨given, givenCopy, agrees⟩ :=
    (splice_agrees_with_copy rfl served ended servedCopy endedCopy).1 (by decide)
  refine ⟨last, final, served, servedCopy, given, givenCopy, ?_⟩
  rcases agrees with ⟨same, _⟩ | ⟨_, room, _⟩
  · exact same
  · cases room

end Cuprum.Pump
