import Cuprum.NativePump.Setup

namespace Cuprum.NativePump

open Cuprum.Effect

variable {faults : Faults} {state : RustPumpState} {hop : Hop}

/-- Before the native call takes the writer over, the job closes it itself. -/
theorem prepareRustPumpCall_ends (silent : faults .logReaderPreparation = none) :
    Ends (prepareRustPumpCall faults) (fun _ after => after = hop)
      (fun _ after => ∃ outcomes, after = { hop with
        closed := hop.closed ++ [(.nativeWriter, .job)]
        handoffOutcomes := outcomes }) hop := by
  have abandoned : ∀ {outcome : RustPumpHandoffOutcome} {error : Raised},
      Ends (do
          closeFd .job .nativeWriter
          emitRustPumpHandoffOutcome faults outcome
          throw error : Step Unit)
        (fun _ _ => False)
        (fun _ after => ∃ outcomes, after = { hop with
          closed := hop.closed ++ [(.nativeWriter, .job)]
          handoffOutcomes := outcomes }) hop := by
    intro outcome error
    apply Ends.bind
    apply Ends.updates
    apply Ends.bind
    apply Ends.bind
    apply Ends.updates
    apply call_ends
    · intro
      exact ⟨_, rfl⟩
    · intro error fails
      exact ⟨_, rfl⟩
  unfold prepareRustPumpCall
  apply Ends.bind
  apply Ends.handle
  apply call_ends
  · intro
    apply Ends.bind
    apply Ends.handle
    apply call_ends
    · intro
      apply Ends.handle
      apply call_ends
      · intro
        rfl
      · intro error fails
        apply Ends.bind
        apply call_ends
        · intro
          apply abandoned.mono
          · intro _ _ never
            exact never.elim
          · intro _ after closed
            exact closed
        · intro worse logged
          rw [silent] at logged
          cases logged
    · intro error fails
      apply abandoned.mono
      · intro _ _ never
        exact never.elim
      · intro _ after closed
        exact closed
  · intro error fails
    apply abandoned.mono
    · intro _ _ never
      exact never.elim
    · intro _ after closed
      exact closed

theorem left_suppressedTeardownFailure {body : Step Unit} :
    left (suppressedTeardownFailure body) hop = left body hop := by
  unfold suppressedTeardownFailure left
  rw [run_tryCatch]
  cases ran : body hop with
  | ok value after => rfl
  | error error after =>
      dsimp only
      split <;> rename_i handled <;> split at handled <;> cases handled <;> rfl

/-- Suppressed or not, what a mode's return raises leaves the refusal noted. -/
theorem suppressedReturn_left {site : Site} {body : Step Unit} {modes : BlockingModes}
    (changes : Ends body (fun _ after => after = { hop with modes := modes })
      (fun _ after => True ∧ after = hop) hop) :
    Ends (suppressedTeardownFailure (givingBack site body))
      (fun _ after => hop.Remoded modes after)
      (fun _ after => ∀ modes, hop.Remoded modes after) hop := by
  apply Ends.handle
  apply (givingBack_ends changes).mono
  · intro _ after changed
    exact changed
  · intro error after failed
    split
    · exact failed.2 modes
    · exact failed.2

theorem setReaderBlocking_left {site : Site} {blocking : Bool} :
    Ends (setReaderBlocking faults site blocking)
      (fun _ after => after = { hop with modes := { hop.modes with reader := blocking } })
      (fun _ after => True ∧ after = hop) hop := by
  apply Ends.bind
  apply call_ends
  · intro
    rfl
  · intro error fails
    exact ⟨trivial, rfl⟩

theorem setWriterBlocking_left {site : Site} {blocking : Bool} :
    Ends (setWriterBlocking faults site blocking)
      (fun _ after => after = { hop with modes := { hop.modes with writer := blocking } })
      (fun _ after => True ∧ after = hop) hop := by
  apply Ends.bind
  apply call_ends
  · intro
    rfl
  · intro error fails
    exact ⟨trivial, rfl⟩

theorem BlockingModeGuard.restore_left {guard : BlockingModeGuard} :
    hop.Restored guard (left (guard.restore faults) hop) := by
  apply ends_left_iff.mp
  unfold BlockingModeGuard.restore
  apply Ends.bind
  apply Ends.updates
  apply Ends.bind
  apply (suppressedReturn_left setReaderBlocking_left).mono
  · intro _ middle first
    apply (suppressedReturn_left setWriterBlocking_left).mono
    · intro _ after second
      exact first.both second
    · intro _ after second
      exact first.both (second _)
  · intro _ after failed
    exact failed _

/-- What the completion callback leaves, whatever is raised inside it. -/
def Hop.Completed (hop : Hop) (guard : BlockingModeGuard) (after : Hop) : Prop :=
  ∃ retained spanOutcomes, Hop.Restored { hop with
    retained := retained
    spanOutcomes := spanOutcomes
    closed := hop.closed ++ [(.nativeReader, .callback)] ++ stateClosings .callback
    cleanupCompleted := true
    winners := if hop.wasDeferred then hop.winners else hop.winners ++ [.completion] }
    guard after

theorem completeCleanup_ends :
    Ends completeCleanup
      (fun deferred after => deferred = hop.wasDeferred ∧ after = { hop with
        cleanupCompleted := true
        winners := if hop.wasDeferred then hop.winners else hop.winners ++ [.completion] })
      (fun _ _ => False) hop :=
  ⟨rfl, rfl⟩

def Hop.Recorded (hop after : Hop) : Prop :=
  ∃ retained, after = { hop with
    retained := retained
    cleanupCompleted := true
    winners := if hop.wasDeferred then hop.winners else hop.winners ++ [.completion] }

theorem recordCompletion_left : hop.Recorded (left (recordCompletion faults) hop) := by
  apply ends_left_iff.mp
  unfold recordCompletion
  apply Ends.bind
  apply completeCleanup_ends.mono
  · intro deferred middle recorded
    obtain ⟨_, recorded⟩ := recorded
    subst middle
    cases deferred with
    | false => exact ⟨false, rfl⟩
    | true =>
        apply Ends.bind
        apply call_ends
        · intro
          exact ⟨false, rfl⟩
        · intro error fails
          exact ⟨hop.retained, rfl⟩
  · intro _ _ never
    exact never.elim

theorem left_recordCompletion :
    left (recordCompletion faults) hop = { hop with
      retained := (left (recordCompletion faults) hop).retained
      cleanupCompleted := true
      winners :=
        if hop.wasDeferred then hop.winners else hop.winners ++ [.completion] } := by
  obtain ⟨retained, recorded⟩ : hop.Recorded (left (recordCompletion faults) hop) :=
    recordCompletion_left
  rw [recorded]

theorem left_logFailedAfterCancel {outcome : PumpHopOutcome} :
    left (if outcome = .failedAfterCancel then call faults .logFailedAfterCancel
      else pure ()) hop = hop := by
  split
  · exact left_call
  · rfl

theorem completeRustPump_left {failed : Bool} :
    hop.Completed state.guard (left (completeRustPump faults state failed) hop) := by
  unfold completeRustPump finalizeNativePumpResources
  rw [left_get_bind, left_tryFinally, left_tryFinally, left_logFailedAfterCancel,
    left_closePumpHopSpans, left_tryFinally, left_tryFinally, left_tryFinally,
    left_closeFd, left_suppressedTeardownFailure, left_closeRustPumpStateFds,
    left_recordCompletion]
  let outcome := classifyPumpOutcome failed hop.wasCancelled
  obtain ⟨modes, refusals, given, restored⟩ : Hop.Restored { hop with
      spanOutcomes := hop.spanOutcomes ++ [outcome]
      closed := hop.closed ++ [(.nativeReader, .callback)] } state.guard
        (left (state.guard.restore faults) _) := BlockingModeGuard.restore_left
  rw [restored]
  exact ⟨_, _, modes, refusals, given, rfl⟩

end Cuprum.NativePump
