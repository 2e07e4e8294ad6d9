import Cuprum.Deadline.Direct

namespace Cuprum.Deadline

open Cuprum.Effect

variable {ε : Type} {env : Env ε} {ledger : Ledger ε} {shape : Shape}

/-- A run of this shape has failed with what its last strike comes to. -/
abbrev Ledger.Failed (env : Env ε) (shape : Shape) (error : Raised ε) (after : Ledger ε) :
    Prop :=
  after.Ended env shape id error

/-- The error of a hook is what the run is left with. -/
theorem emitExitEvent_ends (settled : ledger.Settled env)
    (hasty : shape ≠ .direct → env.owns = true →
      ledger.hasty = ledger.met.any (env.hastensReaders shape)) :
    Ends (emitExitEvent env) (fun _ after => after = ledger)
      (fun error after => after.Failed env shape error) ledger := by
  unfold emitExitEvent
  cases fails : env.hook with
  | none => exact Ends.returns rfl
  | some error =>
      apply Ends.bind
      apply Ends.updates
      refine Ends.raises ⟨{ settled with }, ?_, ?_⟩
      · refine ⟨.own .event error, List.getLast?_concat, ?_, fun _ wrong => (by cases wrong)⟩
        simp [Env.verdict, Env.translates]
      · intro reads owns
        rw [List.any_append, ← hasty reads owns]
        exact (Bool.or_false _).symm

theorem translateRunTimeout_ends {error : Raised ε}
    (ended : ledger.Ended env shape (env.reported shape) error) (bare : Bool)
    (translated : env.reported shape error =
      if bare = true ∧ env.timeout = .absent then .invariant else .timeoutExpired) :
    Ends (translateRunTimeout env bare : Step ε Unit) (fun _ _ => False)
      (fun error after => after.Failed env shape error) ledger := by
  obtain ⟨last, ends, verdict, timed⟩ := ended.struck
  rw [translated] at verdict
  have reports : ∀ {middle : Ledger ε}, middle = ledger → bare = false ∨ env.timeout ≠ .absent →
      Ends (do emitExitEvent env; throw .timeoutExpired : Step ε Unit) (fun _ _ => False)
        (fun error after => after.Failed env shape error) middle := by
    rintro middle rfl configured
    rw [if_neg (by rcases configured with rfl | present <;> simp_all)] at verdict
    apply Ends.bind
    apply (emitExitEvent_ends ended.settled ended.hasty).mono
    · rintro _ _ rfl
      exact Ends.raises ⟨ended.settled, ⟨last, ends, verdict, timed⟩, ended.hasty⟩
    · exact fun _ _ failed => failed
  apply Ends.bind
  apply Ends.branch
  · intro untyped
    apply Ends.branch
    · intro absent
      rw [if_pos ⟨untyped, absent⟩] at verdict
      exact Ends.raises ⟨ended.settled, ⟨last, ends, verdict, timed⟩, ended.hasty⟩
    · exact fun present => Ends.returns (reports rfl (.inr present))
  · exact fun typed => Ends.returns (reports rfl (.inl (eq_false_of_ne_true typed)))

/-- An error that reaches the frame around a run and that the frame has nothing to do with. -/
theorem Ledger.Ended.passes {error : Raised ε}
    (ended : ledger.Ended env shape (env.reported shape) error)
    (wrapped : error ≠ .subprocessTimeout)
    (other : ¬(shape = .direct ∧ env.isTimeoutError error = true)) :
    ledger.Failed env shape error := by
  obtain ⟨last, ends, verdict, timed⟩ := ended.struck
  have same : env.reported shape error = error := by
    unfold Env.reported
    split
    · exact absurd rfl wrapped
    · exact if_neg other
  rw [same] at verdict
  exact ⟨ended.settled, ⟨last, ends, verdict, timed⟩, ended.hasty⟩

theorem translateDirectFailure_ends {error : Raised ε} {hasConsumers : Bool}
    (ended : ledger.Ended env shape (env.reported shape) error)
    (same : hasConsumers = decide (shape ≠ .direct)) :
    Ends (translateDirectFailure env hasConsumers error) (fun _ _ => False)
      (fun error after => after.Failed env shape error) ledger := by
  unfold translateDirectFailure
  split
  · exact translateRunTimeout_ends ended false rfl
  · rename_i wrapped
    apply Ends.branch
    · intro bare
      simp only [same, Bool.and_eq_true, Bool.not_eq_true', decide_eq_false_iff_not, ne_eq,
        not_not] at bare
      apply translateRunTimeout_ends ended true
      simp [Env.reported, bare]
    · intro other
      simp only [same, Bool.and_eq_true, Bool.not_eq_true', decide_eq_false_iff_not, ne_eq,
        not_not] at other
      exact Ends.raises (ended.passes wrapped fun both => other ⟨both.2, both.1⟩)

/-- The heartbeat is stopped at the end, whatever that end is. -/
theorem shieldedStop_ends {returned : Unit → Ledger ε → Prop}
    {raised : Raised ε → Ledger ε → Prop}
    (stops : returned () { ledger with beating := false })
    (interrupts : raised .cancelled (({ ledger with beating := false } : Ledger ε).interrupted
      .idle)) :
    Ends (shieldedCleanup env .idle stopIdleMonitor) returned raised ledger := by
  apply shieldedCleanup_ends fun ledger => { ledger with beating := false }
  · exact fun _ => rfl
  · exact fun _ => stops
  · exact fun _ => interrupts

variable (shape) in
theorem awaitDirectCompletion_ends (hasConsumers : Bool)
    (same : hasConsumers = decide (shape ≠ .direct))
    (ends : Ends (if hasConsumers then runSubprocessWithStreams env
        else runSubprocessWithoutStreams env) (fun _ after => after.Settled env ∧ after.Fresh)
      (fun error after => after.Ended env shape (env.reported shape) error) ledger) :
    Ends (awaitDirectCompletion env hasConsumers)
      (fun _ after => after.Settled env ∧ after.Fresh)
      (fun error after => after.Failed env shape error) ledger := by
  apply Ends.ensure
  apply Ends.handle
  apply ends.mono
  · rintro _ after ⟨settled, fresh⟩
    apply shieldedStop_ends
    · exact ⟨⟨settled.writer, settled.readers, rfl⟩, ⟨fresh.torn, fresh.hasty, fresh.met⟩⟩
    · refine Ledger.ended_interrupted ⟨settled.writer, settled.readers, rfl⟩ rfl ?_ rfl
      intro _ _
      change after.hasty = after.met.any _
      rw [fresh.hasty, fresh.met]
      rfl
  · intro error after ended
    have stopping : ∀ error after, Ledger.Failed env shape error after →
        Ends (shieldedCleanup env .idle stopIdleMonitor)
          (fun _ => Ledger.Failed env shape error)
          (fun error after => after.Failed env shape error) after := by
      intro error after failed
      have settled := failed.settled
      apply shieldedStop_ends
      · exact ⟨⟨settled.writer, settled.readers, rfl⟩, failed.struck, failed.hasty⟩
      · refine Ledger.ended_interrupted ⟨settled.writer, settled.readers, rfl⟩ rfl ?_ rfl
        exact failed.hasty
    apply (translateDirectFailure_ends ended same).mono
    · exact fun _ _ wrong => wrong.elim
    · exact stopping

theorem translateLineFailure_ends {error : Raised ε}
    (ended : ledger.Ended env .lines (env.reported .lines) error) :
    Ends (translateLineFailure env error) (fun _ _ => False)
      (fun error after => after.Failed env .lines error) ledger := by
  unfold translateLineFailure
  split
  · exact translateRunTimeout_ends ended false rfl
  · rename_i wrapped
    exact Ends.raises (ended.passes wrapped fun both => (by cases both.1))

theorem Ledger.Open.of_started (env : Env ε) (reads : shape ≠ .direct) :
    (shape.started env).Open env := by
  cases shape with
  | direct => exact absurd rfl reads
  | streamed | lines =>
      refine ⟨⟨rfl, rfl, rfl⟩, rfl, ?_, ?_⟩ <;>
        cases feeds : env.feeds <;>
          simp [Shape.started, Writer.isCancelled, Env.reclaims, feeds]

/-- However a run of one command ends, no task of it is left to await, but for a writer that
outlives its time.  What it raises is what its last strike comes to, and readers of a run
that owns its group are cancelled before the group is torn down only on the strikes that
hasten it, and only those that still run. -/
theorem Shape.run_ends (env : Env ε) (shape : Shape) :
    Ends (shape.run env) (fun _ after => after.Settled env ∧ after.Fresh)
      (fun error after => after.Failed env shape error) (shape.started env) := by
  have quiet : ∀ {after : Ledger ε}, after.Fresh → shape ≠ .direct → env.owns = true →
      after.hasty = after.met.any (env.hastensReaders shape) := by
    intro after fresh _ _
    rw [fresh.hasty, fresh.met]
    rfl
  have emits : ∀ {after : Ledger ε}, after.Settled env → after.Fresh →
      Ends (emitExitEvent env) (fun _ after => after.Settled env ∧ after.Fresh)
        (fun error after => after.Failed env shape error) after := by
    intro after settled fresh
    apply (emitExitEvent_ends settled (quiet fresh)).mono
    · rintro _ _ rfl
      exact ⟨settled, fresh⟩
    · exact fun _ _ failed => failed
  cases shape with
  | direct =>
      have unfed : env.feeds = false → env.reclaims (Shape.direct.started env).writer = true := by
        intro starved
        simp [Shape.started, Env.reclaims, starved]
      have unstopped : (Shape.direct.started env).writer.isCancelled = false := by
        cases feeds : env.feeds <;> simp [Shape.started, Writer.isCancelled, feeds]
      apply Ends.bind
      apply (awaitDirectCompletion_ends .direct false rfl (runSubprocessWithoutStreams_ends
        ⟨rfl, rfl, rfl⟩ ⟨rfl, rfl⟩ unstopped unfed)).mono
      · rintro _ after ⟨settled, fresh⟩
        exact emits settled fresh
      · exact fun _ _ failed => failed
  | streamed =>
      have opened := Ledger.Open.of_started env (fun wrong : Shape.streamed = .direct =>
        (by cases wrong))
      apply Ends.bind
      apply (awaitDirectCompletion_ends .streamed true rfl
        (runSubprocessWithStreams_ends opened)).mono
      · rintro _ after ⟨settled, fresh⟩
        exact emits settled fresh
      · exact fun _ _ failed => failed
  | lines =>
      have opened := Ledger.Open.of_started env (fun wrong : Shape.lines = .direct =>
        (by cases wrong))
      apply Ends.bind
      apply Ends.handle
      apply (waitForLineStreamExit_ends opened).mono
      · rintro _ after ⟨settled, fresh⟩
        apply Ends.bind
        apply (shieldedNothing_ends id settled fresh rfl rfl).mono
        · rintro _ after ⟨settled, fresh⟩
          exact emits settled fresh
        · exact fun _ _ failed => failed
      · intro _ after ended
        apply (translateLineFailure_ends ended).mono
        · exact fun _ _ wrong => wrong.elim
        · exact fun _ _ failed => failed

/-- The writer raises a `TimeoutError` before the child has exited, under a timeout that does
not expire. -/
def writerTimesOut : Env Unit where
  timeout := .positive
  feeds := true
  owns := false
  watches := false
  isTimeout := fun _ => true
  answers := fun _ => .returns
  interrupts := fun _ => false
  exitDone := false
  ends := fun _ => false
  eof := false
  late := false
  lapses := false
  outlives := false
  finished := false
  child := none
  writer := some ()
  reader := none
  hook := none
  expires_timed := fun _ wrong => (by cases wrong)
  late_timed := fun wrong => (by cases wrong)
  lapses_timed := fun wrong => (by cases wrong)

example : outcome (Shape.direct.run writerTimesOut) (Shape.direct.started writerTimesOut) =
    .error .timeoutExpired :=
  rfl

example : outcome (Shape.streamed.run writerTimesOut) (Shape.streamed.started writerTimesOut) =
    .error .timeoutExpired :=
  rfl

example : outcome (Shape.lines.run writerTimesOut) (Shape.lines.started writerTimesOut) =
    .error (.own .writer ()) :=
  rfl

end Cuprum.Deadline
