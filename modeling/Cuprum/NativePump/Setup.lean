import Cuprum.NativePump.Handoff

namespace Cuprum.NativePump

open Cuprum.Effect

/-- The calls that work on the hop's own duplicates before the job is accepted. -/
def stateSites : List Site :=
  [.openStateReader, .openStateWriter, .getReaderBlocking, .getWriterBlocking,
    .setReaderBlocking, .setWriterBlocking, .rollbackReaderBlocking,
    .restoreReader, .restoreWriter]

/-- The log records written while the hop still holds what it opened. -/
def logSites : List Site :=
  [.logDuplicateWriter, .logExecutorSubmission, .logReaderPreparation]

def Faults.foreseen (faults : Faults) : Bool :=
  (stateSites.all fun site => (faults site).all Raised.isOsOrValue) &&
    logSites.all fun site => (faults site).isNone

/-- The hop as its start finds it, the reader paused or with nothing to pause. -/
def Hop.fresh (paused : Bool) (modes : BlockingModes) : Hop where
  transport := if paused then .paused else .flowing
  modes := modes

/-- The start has come to nothing and keeps nothing.  The modes are those it found. -/
structure Hop.Undone (modes : BlockingModes) (hop : Hop) : Prop where
  submitted : hop.submitted = false
  io : hop.io = .idle
  undecided : hop.winners = []
  flowing : hop.transport ≠ .paused
  openedOnce : ∀ descriptor, hop.opened.count descriptor ≤ 1
  closedOnce : ∀ descriptor,
    (hop.closed.map Prod.fst).count descriptor = hop.opened.count descriptor
  closers : ∀ closing ∈ hop.closed, closing.2 = .start
  restored : hop.restorations = if hop.engaged then [.idle] else []
  original : hop.refusals = [] → hop.modes = modes

/-- The executor has accepted the job, and nothing else has happened. -/
structure Hop.Sent (hop : Hop) : Prop where
  submitted : hop.submitted = true
  io : hop.io = .idle
  undecided : hop.winners = []
  uncancelled : hop.wasDeferred = false
  uncompleted : hop.cleanupCompleted = false
  engaged : hop.engaged = true
  unrestored : hop.restorations = []
  unrefused : hop.refusals = []
  opened : hop.opened = [.stateReader, .stateWriter, .nativeReader, .nativeWriter]
  closed : hop.closed = []

/-- The modes are now these, unless giving one back was refused. -/
def Hop.Remoded (hop : Hop) (modes : BlockingModes) (after : Hop) : Prop :=
  ∃ changed refusals, (refusals = [] → changed = modes) ∧
    after = { hop with modes := changed, refusals := hop.refusals ++ refusals }

def BlockingModeGuard.modes (guard : BlockingModeGuard) : BlockingModes :=
  ⟨guard.readerWasBlocking, guard.writerWasBlocking⟩

def Hop.Restored (hop : Hop) (guard : BlockingModeGuard) (after : Hop) : Prop :=
  Hop.Remoded { hop with restorations := hop.restorations ++ [hop.io] } guard.modes after

/-- The reader's mode goes back, and then the writer's. -/
theorem Hop.Remoded.both {hop middle after : Hop} {reader writer : Bool}
    (first : hop.Remoded { hop.modes with reader := reader } middle)
    (second : middle.Remoded { middle.modes with writer := writer } after) :
    hop.Remoded ⟨reader, writer⟩ after := by
  obtain ⟨changed, refusals, given, rfl⟩ := first
  obtain ⟨final, further, last, rfl⟩ := second
  refine ⟨final, refusals ++ further, ?_, ?_⟩
  · intro none_
    obtain ⟨silent, quiet⟩ := List.append_eq_nil_iff.mp none_
    rw [last quiet, given silent]
  · rw [← List.append_assoc]

theorem Hop.remoded_self (hop : Hop) : hop.Remoded hop.modes hop :=
  ⟨hop.modes, [], fun _ => rfl, by rw [List.append_nil]⟩

section Specs

variable {faults : Faults} {state : RustPumpState} {hop : Hop}

theorem Faults.expected (foreseen : faults.foreseen = true) {site : Site}
    (member : site ∈ stateSites) {error : Raised} (fails : faults site = some error) :
    error.isOsOrValue = true := by
  unfold Faults.foreseen at foreseen
  rw [Bool.and_eq_true, List.all_eq_true] at foreseen
  have held := foreseen.1 site member
  rwa [fails] at held

theorem Faults.silent (foreseen : faults.foreseen = true) {site : Site}
    (member : site ∈ logSites) : faults site = none := by
  unfold Faults.foreseen at foreseen
  rw [Bool.and_eq_true, List.all_eq_true, List.all_eq_true] at foreseen
  exact Option.isNone_iff_eq_none.mp (foreseen.2 site member)

theorem call_ends {site : Site} {returned : Unit → Hop → Prop}
    {raised : Raised → Hop → Prop} (returns : faults site = none → returned () hop)
    (raises : ∀ error, faults site = some error → raised error hop) :
    Ends (call faults site) returned raised hop := by
  unfold call
  cases answer : faults site with
  | none => exact returns answer
  | some error => exact raises error answer

theorem silent_ends (foreseen : faults.foreseen = true) {site : Site}
    (member : site ∈ logSites) {returned : Unit → Hop → Prop}
    {raised : Raised → Hop → Prop} (returns : returned () hop) :
    Ends (call faults site) returned raised hop := by
  apply call_ends
  · intro
    exact returns
  · intro error fails
    rw [Faults.silent foreseen member] at fails
    cases fails

theorem openNativePumpWorkerFds_ends (foreseen : faults.foreseen = true) :
    Ends (openNativePumpWorkerFds faults)
      (fun opened after =>
        if opened then
          after = { hop with opened := hop.opened ++ [.stateReader, .stateWriter] }
        else ∃ descriptors, descriptors.Nodup ∧
          after = { hop with
            opened := hop.opened ++ descriptors
            closed := hop.closed ++ descriptors.map (·, .start) })
      (fun _ _ => False) hop := by
  unfold openNativePumpWorkerFds openFd
  apply Ends.handle
  apply Ends.bind
  apply Ends.bind
  apply call_ends
  · intro
    apply Ends.updates
    apply Ends.handle
    apply Ends.bind
    apply Ends.bind
    apply call_ends
    · intro
      apply Ends.updates
      apply Ends.returns
      simp
    · intro error fails
      have known := Faults.expected foreseen (by decide) fails
      simp only [known, if_true]
      exact ⟨[.stateReader], by decide, rfl⟩
  · intro error fails
    have known := Faults.expected foreseen (by decide) fails
    simp only [known, if_true]
    exact ⟨[], List.nodup_nil, by simp⟩

theorem makeBlocking_ends {wasBlocking : Bool} {switch : Step Unit}
    {returned : Unit → Hop → Prop} {raised : Raised → Hop → Prop}
    (stays : wasBlocking = true → returned () hop)
    (switches : wasBlocking = false → Ends switch returned raised hop) :
    Ends (makeBlocking wasBlocking switch) returned raised hop := by
  unfold makeBlocking
  cases wasBlocking with
  | true => exact stays rfl
  | false => exact switches rfl

theorem suppressed_ends {body : Step Unit} {settled : Hop → Prop}
    (ends : Ends body (fun _ => settled)
      (fun error after => error.isOsOrValue = true ∧ settled after) hop) :
    Ends (suppressedTeardownFailure body) (fun _ => settled) (fun _ _ => False) hop := by
  apply Ends.handle
  apply ends.mono
  · intro _ after holds
    exact holds
  · intro error after holds
    simp only [holds.1, if_true]
    exact holds.2

theorem setReaderBlocking_ends (foreseen : faults.foreseen = true) {site : Site}
    (member : site ∈ stateSites) {blocking : Bool} :
    Ends (setReaderBlocking faults site blocking)
      (fun _ after => after = { hop with modes := { hop.modes with reader := blocking } })
      (fun error after => error.isOsOrValue = true ∧ after = hop) hop := by
  apply Ends.bind
  apply call_ends
  · intro
    exact rfl
  · intro error fails
    exact ⟨Faults.expected foreseen member fails, rfl⟩

theorem setWriterBlocking_ends (foreseen : faults.foreseen = true) {site : Site}
    (member : site ∈ stateSites) {blocking : Bool} :
    Ends (setWriterBlocking faults site blocking)
      (fun _ after => after = { hop with modes := { hop.modes with writer := blocking } })
      (fun error after => error.isOsOrValue = true ∧ after = hop) hop := by
  apply Ends.bind
  apply call_ends
  · intro
    exact rfl
  · intro error fails
    exact ⟨Faults.expected foreseen member fails, rfl⟩

/-- What a mode's return comes to, however it fails. -/
theorem givingBack_ends {site : Site} {body : Step Unit} {modes : BlockingModes}
    {failing : Raised → Prop}
    (changes : Ends body (fun _ after => after = { hop with modes := modes })
      (fun error after => failing error ∧ after = hop) hop) :
    Ends (givingBack site body) (fun _ after => hop.Remoded modes after)
      (fun error after => failing error ∧ ∀ modes, hop.Remoded modes after) hop := by
  apply Ends.handle
  apply changes.mono
  · intro _ after same
    subst after
    exact ⟨modes, [], fun _ => rfl, by rw [List.append_nil]⟩
  · intro error after failed
    obtain ⟨known, same⟩ := failed
    subst after
    apply Ends.bind
    apply Ends.updates
    exact ⟨known, fun _ => ⟨hop.modes, [site], nofun, rfl⟩⟩

theorem suppressedReturn_ends {site : Site} {body : Step Unit} {modes : BlockingModes}
    (changes : Ends body (fun _ after => after = { hop with modes := modes })
      (fun error after => error.isOsOrValue = true ∧ after = hop) hop) :
    Ends (suppressedTeardownFailure (givingBack site body))
      (fun _ after => hop.Remoded modes after) (fun _ _ => False) hop := by
  apply suppressed_ends
  apply (givingBack_ends changes).mono
  · intro _ after changed
    exact changed
  · intro error after failed
    exact ⟨failed.1, failed.2 _⟩

theorem makeReaderBlocking_ends (foreseen : faults.foreseen = true) {wasBlocking : Bool}
    (mode : hop.modes.reader = wasBlocking) :
    Ends (makeBlocking wasBlocking (setReaderBlocking faults .setReaderBlocking true))
      (fun _ after => after = { hop with modes := { hop.modes with reader := true } })
      (fun error after => error.isOsOrValue = true ∧ after = hop) hop := by
  apply makeBlocking_ends
  · intro already
    rw [← already, ← mode]
  · intro
    exact setReaderBlocking_ends foreseen (by decide)

theorem makeWriterBlocking_ends (foreseen : faults.foreseen = true) {wasBlocking : Bool}
    (mode : hop.modes.writer = wasBlocking) :
    Ends (makeBlocking wasBlocking (setWriterBlocking faults .setWriterBlocking true))
      (fun _ after => after = { hop with modes := { hop.modes with writer := true } })
      (fun error after => error.isOsOrValue = true ∧ after = hop) hop := by
  apply makeBlocking_ends
  · intro already
    rw [← already, ← mode]
  · intro
    exact setWriterBlocking_ends foreseen (by decide)

theorem rollbackReaderBlocking_ends (foreseen : faults.foreseen = true)
    {wasBlocking : Bool} {error : Raised} (known : error.isOsOrValue = true)
    (switched : hop.modes.reader = true) :
    Ends (rollbackReaderBlocking faults wasBlocking error)
      (fun _ after => hop.Remoded { hop.modes with reader := wasBlocking } after)
      (fun _ _ => False) hop := by
  unfold rollbackReaderBlocking
  rw [known, Bool.true_and]
  cases wasBlocking with
  | false =>
      exact suppressedReturn_ends (setReaderBlocking_ends foreseen (by decide))
  | true =>
      have same : ({ hop.modes with reader := true } : BlockingModes) = hop.modes := by
        rw [← switched]
      rw [same]
      exact hop.remoded_self

theorem setStreamFdsBlocking_ends (foreseen : faults.foreseen = true) :
    Ends (setStreamFdsBlocking faults)
      (fun guard after =>
        guard = ⟨hop.modes.reader, hop.modes.writer⟩ ∧
          after = { hop with modes := ⟨true, true⟩, engaged := true })
      (fun error after =>
        error.isOsOrValue = true ∧ hop.Remoded hop.modes after)
      hop := by
  have unchanged := hop.remoded_self
  unfold setStreamFdsBlocking
  apply Ends.bind
  apply call_ends
  · intro
    apply Ends.bind
    apply Ends.reads
    apply Ends.bind
    apply call_ends
    · intro
      apply Ends.bind
      apply Ends.reads
      apply Ends.bind
      refine (makeReaderBlocking_ends foreseen rfl).mono ?_ ?_
      · intro _ middle switched
        subst middle
        apply Ends.bind
        apply Ends.handle
        refine (makeWriterBlocking_ends foreseen ?_).mono ?_ ?_
        · rfl
        · intro _ after switched
          subst after
          exact ⟨rfl, rfl⟩
        · intro error after failed
          obtain ⟨known, same⟩ := failed
          subst after
          apply Ends.bind
          apply (rollbackReaderBlocking_ends foreseen known rfl).mono
          · intro _ after restored
            exact ⟨known, restored⟩
          · intro _ _ never
            exact never.elim
      · intro error after failed
        exact ⟨failed.1, failed.2 ▸ unchanged⟩
    · intro error fails
      exact ⟨Faults.expected foreseen (by decide) fails, unchanged⟩
  · intro error fails
    exact ⟨Faults.expected foreseen (by decide) fails, unchanged⟩

/-- What a failed `createRustPumpState` leaves: the duplicates it opened, closed. -/
def Hop.Retracted (hop after : Hop) : Prop :=
  ∃ descriptors, descriptors.Nodup ∧
    Hop.Remoded { hop with
      opened := hop.opened ++ descriptors
      closed := hop.closed ++ descriptors.map (·, .start) } hop.modes after

theorem createRustPumpState_ends (foreseen : faults.foreseen = true)
    {resume release : Bool} :
    Ends (createRustPumpState faults resume release)
      (fun state after =>
        state = ⟨⟨hop.modes.reader, hop.modes.writer⟩, resume, release⟩ ∧
          after = { hop with
            modes := ⟨true, true⟩
            engaged := true
            opened := hop.opened ++ [.stateReader, .stateWriter] })
      (fun error after =>
        (error = .stateDuplication ∨ error = .blockingMode) ∧ hop.Retracted after)
      hop := by
  unfold createRustPumpState duplicateRustPumpStateFds engageRustPumpBlockingMode
  apply Ends.bind
  apply Ends.bind
  apply (openNativePumpWorkerFds_ends foreseen).mono
  · intro opened middle outcome
    cases opened with
    | false =>
        obtain ⟨descriptors, once, same⟩ := outcome
        refine ⟨Or.inl rfl, descriptors, once, hop.modes, [], fun _ => rfl, ?_⟩
        rw [List.append_nil]
        exact same
    | true =>
        simp only [if_true] at outcome ⊢
        subst middle
        apply Ends.bind
        apply Ends.handle
        apply (setStreamFdsBlocking_ends foreseen).mono
        · intro guard after engaged
          obtain ⟨same, engaged⟩ := engaged
          subst guard after
          exact ⟨rfl, rfl⟩
        · intro error after failed
          obtain ⟨known, modes, refusals, given, same⟩ := failed
          subst after
          simp only [known, if_true]
          refine ⟨Or.inr rfl, [.stateReader, .stateWriter], by decide, modes, refusals, given, ?_⟩
          simp
  · intro _ _ never
    exact never.elim

theorem BlockingModeGuard.restore_ends (foreseen : faults.foreseen = true)
    {guard : BlockingModeGuard} :
    Ends (guard.restore faults)
      (fun _ after => hop.Restored guard after)
      (fun _ _ => False) hop := by
  unfold BlockingModeGuard.restore
  apply Ends.bind
  apply Ends.updates
  apply Ends.bind
  apply (suppressedReturn_ends (setReaderBlocking_ends foreseen (by decide))).mono
  · intro _ middle first
    apply (suppressedReturn_ends (setWriterBlocking_ends foreseen (by decide))).mono
    · intro _ after second
      exact first.both second
    · intro _ _ never
      exact never
  · intro _ _ never
    exact never

def Transport.handedBack (transport : Transport) (resumeReader : Bool) : Transport :=
  if resumeReader then transport.resumeReading else transport

theorem resumeReaderTransport_ends {resumeReader : Bool} :
    Ends (resumeReaderTransport resumeReader)
      (fun _ after =>
        after = { hop with transport := hop.transport.handedBack resumeReader })
      (fun _ _ => False) hop := by
  cases resumeReader with
  | false => rfl
  | true => rfl

theorem restoreRustPumpState_ends (foreseen : faults.foreseen = true) :
    Ends (restoreRustPumpState faults state)
      (fun _ after => Hop.Restored { hop with
        transport := hop.transport.handedBack state.resumeReader } state.guard after)
      (fun _ _ => False) hop := by
  apply Ends.bind
  apply (BlockingModeGuard.restore_ends foreseen).mono
  · intro _ middle restored
    obtain ⟨modes, refusals, given, restored⟩ := restored
    subst middle
    apply resumeReaderTransport_ends.mono
    · intro _ after resumed
      exact ⟨modes, refusals, given, resumed⟩
    · intro _ _ never
      exact never
  · intro _ _ never
    exact never

def stateClosings (closer : Closer) : List (Descriptor × Closer) :=
  [(.stateReader, closer), (.stateWriter, closer)]

def nativeClosings : Bool → List (Descriptor × Closer)
  | true => [(.nativeReader, .start), (.nativeWriter, .start)]
  | false => []

/-- What a rollback leaves, whatever the observers raise on the way. -/
def Hop.RolledBack (hop : Hop) (state : RustPumpState) (duplicated : Bool) (after : Hop) :
    Prop :=
  ∃ spanOutcomes handoffOutcomes, Hop.Restored { hop with
    transport := hop.transport.handedBack state.resumeReader
    closed := hop.closed ++ nativeClosings duplicated ++ stateClosings .start
    spanOutcomes := spanOutcomes
    handoffOutcomes := handoffOutcomes } state.guard after

theorem left_call {site : Site} : left (call faults site) hop = hop := by
  unfold left call
  cases faults site <;> rfl

theorem left_closePumpHopSpans {outcome : PumpHopOutcome} :
    left (closePumpHopSpans faults outcome) hop =
      { hop with spanOutcomes := hop.spanOutcomes ++ [outcome] } :=
  left_call

theorem left_emitRustPumpHandoffOutcome {outcome : RustPumpHandoffOutcome} :
    left (emitRustPumpHandoffOutcome faults outcome) hop =
      { hop with handoffOutcomes := hop.handoffOutcomes ++ [outcome] } :=
  left_call

theorem left_closeFd {closer : Closer} {descriptor : Descriptor} :
    left (closeFd closer descriptor) hop =
      { hop with closed := hop.closed ++ [(descriptor, closer)] } :=
  rfl

theorem left_closeRustPumpStateFds {closer : Closer} :
    left (closeRustPumpStateFds closer) hop =
      { hop with closed := hop.closed ++ stateClosings closer } := by
  exact congrArg (fun closed => { hop with closed := closed })
    (List.append_assoc hop.closed [(.stateReader, closer)] [(.stateWriter, closer)])

theorem left_closeNativePumpFds {duplicated : Bool} :
    left (closeNativePumpFds duplicated) hop =
      { hop with closed := hop.closed ++ nativeClosings duplicated } := by
  unfold closeNativePumpFds
  cases duplicated with
  | false =>
      change hop = { hop with closed := hop.closed ++ [] }
      rw [List.append_nil]
  | true =>
      rw [if_pos rfl, left_tryFinally, left_closeFd, left_closeFd, List.append_assoc]
      rfl

theorem rollbackRustPumpStart_left (foreseen : faults.foreseen = true)
    (outcome : RustPumpHandoffOutcome) (duplicated : Bool) :
    hop.RolledBack state duplicated
      (left (rollbackRustPumpStart faults state outcome duplicated) hop) := by
  unfold rollbackRustPumpStart
  rw [left_tryFinally, left_tryFinally, left_tryFinally, left_tryFinally,
    left_closePumpHopSpans, left_closeNativePumpFds, left_closeRustPumpStateFds,
    left_emitRustPumpHandoffOutcome]
  apply Exists.elim (ends_left_iff.mp ((restoreRustPumpState_ends foreseen).mono
    (fun _ _ restored => restored) (fun _ _ never => never.elim)))
  rintro modes ⟨refusals, given, restored⟩
  rw [restored]
  exact ⟨_, _, modes, refusals, given, rfl⟩

theorem rollbackRustPumpStart_ends (foreseen : faults.foreseen = true)
    {outcome : RustPumpHandoffOutcome} {duplicated : Bool} {error : Raised} :
    Ends (do
        rollbackRustPumpStart faults state outcome duplicated
        throw error : Step Unit)
      (fun _ _ => False)
      (fun _ after => hop.RolledBack state duplicated after) hop := by
  apply Ends.bind
  apply Ends.mono (ends_left_iff.mpr (rollbackRustPumpStart_left foreseen outcome duplicated))
  · intro _ after rolledBack
    exact rolledBack
  · intro _ after rolledBack
    exact rolledBack

theorem duplicateNativePumpFds_ends :
    Ends (duplicateNativePumpFds faults)
      (fun _ after =>
        after = { hop with opened := hop.opened ++ [.nativeReader, .nativeWriter] })
      (fun _ after => after = hop ∨ after = { hop with
        opened := hop.opened ++ [.nativeReader]
        closed := hop.closed ++ [(.nativeReader, .start)] }) hop := by
  unfold duplicateNativePumpFds openFd
  apply Ends.bind
  apply Ends.bind
  apply call_ends
  · intro
    apply Ends.updates
    apply Ends.handle
    apply Ends.bind
    apply call_ends
    · intro
      apply Ends.updates
      simp
    · intro error fails
      exact Or.inr rfl
  · intro error fails
    exact Or.inl rfl

theorem submitRustPump_ends :
    Ends (submitRustPump faults)
      (fun _ after => after = { hop with submitted := true })
      (fun _ after => after = hop) hop := by
  unfold submitRustPump
  apply Ends.bind
  apply call_ends
  · intro
    apply Ends.bind
    apply call_ends
    · intro
      rfl
    · intro _ _
      rfl
  · intro _ _
    rfl

/-- Every way to fail between the state's creation and the executor's acceptance
ends in a rollback over what was duplicated by then. -/
theorem startRustPumpWithCleanup_ends (foreseen : faults.foreseen = true) :
    Ends (startRustPumpWithCleanup faults state)
      (fun _ after => after = { hop with
        opened := hop.opened ++ [.nativeReader, .nativeWriter]
        submitted := true })
      (fun _ after =>
        hop.RolledBack state false after ∨
          Hop.RolledBack { hop with
            opened := hop.opened ++ [.nativeReader]
            closed := hop.closed ++ [(.nativeReader, .start)] }
            state false after ∨
          Hop.RolledBack { hop with
            opened := hop.opened ++ [.nativeReader, .nativeWriter] }
            state true after) hop := by
  unfold startRustPumpWithCleanup
  apply Ends.bind
  apply Ends.handle
  apply call_ends
  · intro
    apply Ends.bind
    apply Ends.handle
    apply duplicateNativePumpFds_ends.mono
    · intro _ middle duplicated
      subst middle
      apply Ends.handle
      apply submitRustPump_ends.mono
      · intro _ after submitted
        exact submitted
      · intro error after rejected
        subst after
        apply Ends.bind
        apply silent_ends foreseen (by decide)
        apply (rollbackRustPumpStart_ends foreseen).mono
        · intro _ _ never
          exact never.elim
        · intro _ after rolledBack
          exact Or.inr (Or.inr rolledBack)
    · intro error middle failed
      apply Ends.bind
      apply silent_ends foreseen (by decide)
      apply (rollbackRustPumpStart_ends foreseen).mono
      · intro _ _ never
        exact never.elim
      · intro _ after rolledBack
        rcases failed with untouched | reader
        · subst middle
          exact Or.inl rolledBack
        · subst middle
          exact Or.inr (Or.inl rolledBack)
  · intro error fails
    apply (rollbackRustPumpStart_ends foreseen).mono
    · intro _ _ never
      exact never.elim
    · intro _ after rolledBack
      exact Or.inl rolledBack

end Specs

section Start

variable {faults : Faults} {paused : Bool} {modes : BlockingModes}

theorem handedBack_flowing (paused : Bool) (modes : BlockingModes) :
    (Hop.fresh paused modes).transport.handedBack paused ≠ .paused := by
  cases paused with
  | false => exact Transport.noConfusion
  | true => exact Transport.noConfusion

theorem Hop.Retracted.undone {after : Hop} (retracted : (fresh paused modes).Retracted after) :
    Hop.Undone modes { after with transport := after.transport.handedBack paused } := by
  obtain ⟨descriptors, once, changed, refusals, given, same⟩ := retracted
  subst after
  refine ⟨rfl, rfl, rfl, handedBack_flowing paused modes, ?_, ?_, ?_, rfl, given⟩
  · intro descriptor
    exact List.nodup_iff_count.mp once descriptor
  · intro descriptor
    simp [fresh, Function.comp_def]
  · intro closing member
    simp only [fresh, List.nil_append, List.mem_map] at member
    obtain ⟨descriptor, _, same⟩ := member
    exact same ▸ rfl

/-- A rollback closes what is open, once, gives the modes back while no native
I/O runs, and lets the reader flow. -/
theorem Hop.RolledBack.undone {hop after : Hop} {duplicated release : Bool}
    {modes : BlockingModes}
    (rolledBack : hop.RolledBack ⟨⟨modes.reader, modes.writer⟩, paused, release⟩ duplicated after)
    (opened closed : List Descriptor)
    (opens : hop.opened = opened) (closes : hop.closed = closed.map (·, .start))
    (transport : hop.transport = (fresh paused modes).transport)
    (submitted : hop.submitted = false) (io : hop.io = .idle)
    (undecided : hop.winners = []) (engaged : hop.engaged = true)
    (unrestored : hop.restorations = []) (unrefused : hop.refusals = [])
    (balanced : ∀ descriptor, opened.count descriptor ≤ 1 ∧
      ((closed.map (·, Closer.start) ++ nativeClosings duplicated ++
        stateClosings .start).map Prod.fst).count descriptor =
          opened.count descriptor) : after.Undone modes := by
  obtain ⟨spans, outcomes, changed, refusals, given, same⟩ := rolledBack
  subst after
  refine ⟨submitted, io, undecided, ?_, ?_, ?_, ?_, ?_, ?_⟩
  · rw [transport]
    exact handedBack_flowing paused modes
  · intro descriptor
    rw [opens]
    exact (balanced descriptor).1
  · intro descriptor
    rw [opens, closes]
    exact (balanced descriptor).2
  · intro closing member
    rw [closes] at member
    simp only [List.mem_append] at member
    rcases member with (earlier | native) | state
    · obtain ⟨descriptor, _, same⟩ := List.mem_map.mp earlier
      exact same ▸ rfl
    · cases duplicated with
      | false => simp [nativeClosings] at native
      | true =>
          simp only [nativeClosings, List.mem_cons, List.not_mem_nil, or_false] at native
          rcases native with same | same <;> rw [same]
    · simp only [stateClosings, List.mem_cons, List.not_mem_nil, or_false] at state
      rcases state with same | same <;> rw [same]
  · simp only [engaged, unrestored, io, List.nil_append, if_true]
  · intro none_
    change hop.refusals ++ refusals = [] at none_
    rw [unrefused, List.nil_append] at none_
    exact given none_

theorem Hop.Undone.emitted {hop : Hop} (undone : hop.Undone modes)
    (outcomes : List RustPumpHandoffOutcome) :
    Hop.Undone modes { hop with handoffOutcomes := outcomes } :=
  ⟨undone.submitted, undone.io, undone.undecided, undone.flowing, undone.openedOnce,
    undone.closedOnce, undone.closers, undone.restored, undone.original⟩

theorem decline_ends {hop : Hop} {outcome : RustPumpHandoffOutcome}
    (undone : Hop.Undone modes { hop with transport := hop.transport.handedBack paused }) :
    Ends (do
        resumeReaderTransport paused
        call faults .observeDecline
        emitRustPumpHandoffOutcome faults outcome
        pure none : Step (Option RustPumpState))
      (fun created after => created = none ∧ after.Undone modes)
      (fun _ after => after.Undone modes) hop := by
  apply Ends.bind
  apply resumeReaderTransport_ends.mono
  · intro _ resumed same
    subst resumed
    apply Ends.bind
    apply call_ends
    · intro
      apply Ends.bind
      apply Ends.bind
      apply Ends.updates
      apply call_ends
      · intro
        exact ⟨rfl, undone.emitted _⟩
      · intro error fails
        exact undone.emitted _
    · intro error fails
      exact undone
  · intro _ _ never
    exact never.elim

theorem pumpOverRawFds_ends (paused : Bool) (modes : BlockingModes)
    (foreseen : faults.foreseen = true) :
    Ends (pumpOverRawFds faults paused paused)
      (fun started after =>
        match started with
        | none => after.Undone modes
        | some state => state = ⟨⟨modes.reader, modes.writer⟩, paused, paused⟩ ∧
            after.Sent ∧ after.transport = (Hop.fresh paused modes).transport)
      (fun _ after => after.Undone modes) (.fresh paused modes) := by
  unfold pumpOverRawFds
  apply Ends.bind
  apply Ends.handle
  apply call_ends
  · intro
    apply Ends.bind
    apply Ends.handle
    apply Ends.bind
    apply (createRustPumpState_ends foreseen).mono
    · intro state middle created
      obtain ⟨same, created⟩ := created
      subst state middle
      apply Ends.bind
      apply (startRustPumpWithCleanup_ends foreseen).mono
      · intro _ after submitted
        subst after
        exact ⟨rfl, ⟨rfl, rfl, rfl, rfl, rfl, rfl, rfl, rfl, rfl, rfl⟩, rfl⟩
      · intro error after failed
        rcases failed with untouched | halfway | rejected
        · refine untouched.undone [.stateReader, .stateWriter] [] rfl rfl rfl rfl rfl rfl
            rfl rfl rfl ?_
          intro descriptor
          cases descriptor <;> decide
        · refine halfway.undone [.stateReader, .stateWriter, .nativeReader]
            [.nativeReader] rfl rfl rfl rfl rfl rfl rfl rfl rfl ?_
          intro descriptor
          cases descriptor <;> decide
        · refine rejected.undone
            [.stateReader, .stateWriter, .nativeReader, .nativeWriter] []
            rfl rfl rfl rfl rfl rfl rfl rfl rfl ?_
          intro descriptor
          cases descriptor <;> decide
    · intro error middle failed
      obtain ⟨reason, retracted⟩ := failed
      rcases reason with duplication | blocking
      · subst error
        apply (decline_ends retracted.undone).mono
        · intro created after declined
          obtain ⟨same, undone⟩ := declined
          subst created
          exact undone
        · intro _ after undone
          exact undone
      · subst error
        apply (decline_ends retracted.undone).mono
        · intro created after declined
          obtain ⟨same, undone⟩ := declined
          subst created
          exact undone
        · intro _ after undone
          exact undone
  · intro error fails
    apply Ends.bind
    apply resumeReaderTransport_ends.mono
    · intro _ resumed same
      subst resumed
      refine ⟨rfl, rfl, rfl, handedBack_flowing paused modes, ?_, ?_, ?_, rfl, fun _ => rfl⟩
      · intro descriptor
        exact Nat.zero_le 1
      · intro descriptor
        rfl
      · intro closing member
        cases member
    · intro _ _ never
      exact never.elim

end Start

end Cuprum.NativePump
