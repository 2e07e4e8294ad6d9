import Cuprum.Drain.Cut

namespace Cuprum.Drain

open Effect
open Relay (StreamOperationEvent StreamOperationMeasurement StreamOperationOutcome)

variable {κ ρ φ π η α : Type} {config : StreamConfig κ ρ φ π η} {reads : List (StreamRead ρ)}
  {chunk : List UInt8} {finalizing : φ} {start state : DrainState config.echo κ η}

/-! What is completed, and when. -/

/-- No completion has been reported since, and none was dropped. -/
def Unreported {echo : EchoConfig} (start state : DrainState echo κ η) : Prop :=
  state.capturing.completed = start.capturing.completed ∧
    state.capturing.measurement.isSome = start.capturing.measurement.isSome

theorem unreported_fanOut (unreported : Unreported start state) :
    Ends (fanOutChunk config chunk) (fun _ => Unreported start) (fun _ => Unreported start)
      state := by
  obtain ⟨lines, same⟩ := fanOutChunk_kept chunk state
  refine ends_left_iff.mpr ?_
  unfold Unreported
  rw [same]
  exact unreported

theorem unreported_take {absorbing : ρ} (unreported : Unreported start state) :
    Ends (takeChunk config chunk absorbing) (fun _ => Unreported start)
      (fun _ => Unreported start) state := by
  have noted : Unreported start { state with capturing := state.capturing.note chunk } :=
    ⟨unreported.1, Option.isSome_map.trans unreported.2⟩
  have absorbed : Ends (onCapturing (absorbIntoCapture config chunk absorbing))
      (fun _ => Unreported start) (fun _ => Unreported start)
      { state with capturing := state.capturing.note chunk } := by
    obtain ⟨capture, same⟩ := absorbIntoCapture_kept absorbing (state.capturing.note chunk)
    refine ends_left_iff.mpr ?_
    unfold onCapturing
    rw [left_zoom, same]
    exact noted
  refine .of_eq takeChunk_eq (.bind (absorbed.mono ?_ fun _ _ raised => raised))
  intro delivers after kept
  refine .branch (fun _ => .bind ((unreported_fanOut kept).mono ?_ fun _ _ raised => raised))
    fun _ => .returns kept
  exact fun _ _ fanned => .returns fanned

theorem unreported_drainChunks (unreported : Unreported start state) :
    Ends (drainChunks config reads) (fun _ => Unreported start) (fun _ => Unreported start)
      state := by
  have ended : Ends (drainChunks config []) (fun _ => Unreported start)
      (fun _ => Unreported start) state :=
    ⟨unreported.1, Option.isSome_map.trans unreported.2⟩
  induction reads generalizing state with
  | nil => exact ended
  | cons read reads ih =>
      cases reply : read.reply with
      | error error =>
          unfold drainChunks
          simp only [reply]
          exact .branch (fun _ => .returns unreported) fun _ => .raises unreported
      | ok chunk =>
          by_cases empty : chunk = []
          · subst empty
            rw [drainChunks_end reply]
            exact ended
          · refine .of_eq (drainChunks_cons reply empty)
              (.bind ((unreported_take unreported).mono ?_ fun _ _ raised => raised))
            intro took after kept
            refine .branch (fun _ => ih kept ?_) fun _ => .returns kept
            exact ⟨kept.1, Option.isSome_map.trans kept.2⟩

section

variable (config)

/-- The echo is flushed and the capture finalized. -/
def wrapUp (finalizing : φ) : DrainStep config.echo κ η (Option π) := do
  flushEcho config
  onCapturing (finalizeCapture config finalizing)

/-- What the hooks raise when the measurement is completed. -/
def signal (how : StreamOperationOutcome) (capturing : Capturing κ η) : Option Raised :=
  capturing.measurement.bind fun measurement =>
    config.streamHook (measurement.event config.clock how)

def completing (how : StreamOperationOutcome) (capturing : Capturing κ η) : Capturing κ η :=
  { capturing with
    completed := capturing.completed ++
      (capturing.measurement.map (·.event config.clock how)).toList }

def closing (error : Raised) : StreamOperationOutcome :=
  if error = .cancelled then .cancelled else .failed

end

theorem completeStreamOperation_eq (how : StreamOperationOutcome) (capturing : Capturing κ η) :
    completeStreamOperation config how capturing =
      attempt (signal config how capturing) (completing config how capturing) := by
  obtain ⟨capture, lines, activity, measurement, completed⟩ := capturing
  cases measurement with
  | none => simp [completeStreamOperation, signal, completing, attempt]; rfl
  | some measurement => rfl

theorem complete_ends {how : StreamOperationOutcome}
    {returned : Unit → DrainState config.echo κ η → Prop}
    {raised : Raised → DrainState config.echo κ η → Prop}
    (silent : signal config how state.capturing = none →
      returned () { state with capturing := completing config how state.capturing })
    (speaks : ∀ error, signal config how state.capturing = some error →
      raised error { state with capturing := completing config how state.capturing }) :
    Ends (onCapturing (completeStreamOperation config how)) returned raised state := by
  refine .zoom (.of_eq (completeStreamOperation_eq how state.capturing) (.attempt silent speaks))

theorem left_flushEcho (state : DrainState config.echo κ η) :
    (left (flushEcho config) state).capturing = state.capturing := by
  unfold flushEcho
  split
  · exact left_onEcho _ _
  · rfl

theorem unreported_wrapUp (unreported : Unreported start state) :
    Ends (wrapUp config finalizing) (fun _ => Unreported start) (fun _ => Unreported start)
      state := by
  have flushed : Ends (flushEcho config) (fun _ => Unreported start)
      (fun _ => Unreported start) state := by
    refine ends_left_iff.mpr ?_
    unfold Unreported
    rw [left_flushEcho]
    exact unreported
  refine .bind (flushed.mono (fun _ after kept => ?_) fun _ _ raised => raised)
  refine ends_left_iff.mpr ?_
  unfold onCapturing finalizeCapture
  rw [left_zoom]
  cases config.captureSink with
  | none => exact kept
  | some sink =>
      simp only [onCapture]
      unfold Unreported
      rw [left_zoom]
      exact kept

/-- An echo is flushed alike in states that echo alike. -/
theorem outcome_flushEcho (same : state.echo = start.echo) :
    outcome (flushEcho config) state = outcome (flushEcho config) start := by
  unfold flushEcho
  split
  · rw [onEcho, outcome_zoom, outcome_zoom, same]
  · rfl

theorem outcome_finalizeCapture (capturing : Capturing κ η) :
    outcome (finalizeCapture config finalizing) capturing =
      config.captureSink.elim (.ok none) fun sink =>
        (outcome (sink.finalize finalizing) capturing.capture).map some := by
  unfold finalizeCapture
  cases config.captureSink with
  | none => rfl
  | some sink =>
      simp only [onCapture, outcome_zoom, outcome_map]
      rfl

theorem outcome_wrapUp (state : DrainState config.echo κ η) :
    outcome (wrapUp config finalizing) state =
      (outcome (flushEcho config) state).bind fun _ =>
        outcome (finalizeCapture config finalizing) state.capturing := by
  have kept := left_flushEcho state
  unfold left at kept
  unfold wrapUp
  cases ran : flushEcho config state with
  | error error after =>
      unfold outcome
      rw [run_bind, ran]
      rfl
  | ok value after =>
      rw [ran] at kept
      have flushed : outcome (flushEcho config) state = .ok () := by rw [outcome, ran]
      rw [flushed, ← kept]
      have finalized : outcome (onCapturing (finalizeCapture config finalizing)) after = _ :=
        outcome_zoom _ _ _ _
      unfold outcome at finalized ⊢
      rw [run_bind, ran]
      exact finalized

/-- A wrap-up comes to the same wherever the echo and the capture are. -/
theorem outcome_wrapUp_congr (echo : state.echo = start.echo)
    (capture : state.capturing.capture = start.capturing.capture) :
    outcome (wrapUp config finalizing) state = outcome (wrapUp config finalizing) start := by
  rw [outcome_wrapUp, outcome_wrapUp, outcome_flushEcho echo, outcome_finalizeCapture,
    outcome_finalizeCapture, capture]

/-! The routes of a drain. -/

section

variable (config)

/-- A capturing drain that was not told to discard. -/
def Preserves : Prop :=
  config.captureSink.isSome = true ∧ config.discardOnCancel = false

variable (reads : List (StreamRead ρ)) (finalizing : φ) (start : DrainState config.echo κ η)

/-- The drain raises this, with how and where its measurement is completed. -/
inductive Fails : Raised → StreamOperationOutcome → DrainState config.echo κ η → Prop
  | loop {error : Raised} {state : DrainState config.echo κ η}
      (ran : drainChunks config reads start = .error error state) :
      Fails error (closing error) state
  | ended {error : Raised} {state after : DrainState config.echo κ η}
      (ran : drainChunks config reads start = .ok true state)
      (raised : wrapUp config finalizing state = .error error after) :
      Fails error (closing error) after
  | stopped {error : Raised} {state : DrainState config.echo κ η}
      (ran : drainChunks config reads start = .ok false state) (preserves : Preserves config)
      (raised : outcome (wrapUp config finalizing) state = .error error) :
      Fails error .cancelled state
  | left {state : DrainState config.echo κ η}
      (ran : drainChunks config reads start = .ok false state) (gone : ¬Preserves config) :
      Fails .cancelled .cancelled state

/-- What the drain would return. -/
inductive Returns : Option π → StreamOperationOutcome → DrainState config.echo κ η → Prop
  | ended {captured : Option π} {state after : DrainState config.echo κ η}
      (ran : drainChunks config reads start = .ok true state)
      (returned : wrapUp config finalizing state = .ok captured after) :
      Returns captured .eof after
  | stopped {captured : Option π} {state : DrainState config.echo κ η}
      (ran : drainChunks config reads start = .ok false state) (preserves : Preserves config)
      (returned : outcome (wrapUp config finalizing) state = .ok captured) :
      Returns captured .cancelled state

theorem fails_or_returns : (∃ error how state, Fails config reads finalizing start error how state) ∨
    ∃ captured how state, Returns config reads finalizing start captured how state := by
  cases ran : drainChunks config reads start with
  | error error state => exact .inl ⟨error, _, state, .loop ran⟩
  | ok reached state =>
      cases reached with
      | true =>
          cases wrapped : wrapUp config finalizing state with
          | error error after => exact .inl ⟨error, _, after, .ended ran wrapped⟩
          | ok captured after => exact .inr ⟨captured, _, after, .ended ran wrapped⟩
      | false =>
          by_cases preserves : Preserves config
          · cases wrapped : outcome (wrapUp config finalizing) state with
            | error error => exact .inl ⟨error, _, state, .stopped ran preserves wrapped⟩
            | ok captured => exact .inr ⟨captured, _, state, .stopped ran preserves wrapped⟩
          · exact .inl ⟨_, _, state, .left ran preserves⟩

end

variable {error : Raised} {how : StreamOperationOutcome} {captured : Option π}
  {after : DrainState config.echo κ η}

/-- A completion, and then the error under way unless the hooks raise another. -/
def giveUp (config : StreamConfig κ ρ φ π η) (how : StreamOperationOutcome) (error : Raised) :
    DrainStep config.echo κ η α := do
  onCapturing (completeStreamOperation config how)
  throw error

/-- The hooks are heard in place of the error under way. -/
def GivesUp (config : StreamConfig κ ρ φ π η) (how : StreamOperationOutcome) (error : Raised)
    (state : DrainState config.echo κ η) (worse : Raised) (after : DrainState config.echo κ η) :
    Prop :=
  worse = (signal config how state.capturing).getD error ∧
    after.capturing.completed = (completing config how state.capturing).completed

theorem giveUp_ends {returned : α → DrainState config.echo κ η → Prop} :
    Ends (giveUp config how error) returned (GivesUp config how error state) state := by
  refine .bind (complete_ends (fun silent => .raises ⟨?_, rfl⟩) fun worse speaks => ⟨?_, rfl⟩)
  · rw [silent]
    rfl
  · rw [speaks]
    rfl

theorem drain_raised {ends : Raised → DrainState config.echo κ η → Prop}
    (body : Ends (do
        if ← drainChunks config reads then
          let captured ← finishDrain config true finalizing
          pure (some captured)
        else pure none) (fun _ _ => False)
      (fun error => Ends (giveUp config (closing error) error :
        DrainStep config.echo κ η (Option (Option π))) (fun _ _ => False) ends) start) :
    Ends (drain config reads finalizing) (fun _ _ => False) ends start :=
  .bind ((Ends.handle (body.mono (fun _ _ never => never.elim) fun _ _ raised => raised)).mono
    (fun _ _ never => never.elim) fun _ _ raised => raised)

theorem finishDrain_eof (state : DrainState config.echo κ η) :
    finishDrain config true finalizing state = (wrapUp config finalizing >>= fun captured => do
      onCapturing (completeStreamOperation config .eof)
      pure captured) state := by
  unfold finishDrain wrapUp
  simp only [if_true]
  rw [run_bind, run_bind, run_bind]
  cases flushEcho config state <;> rfl

/-- A cancelled drain that preserves its capture has completed its measurement before it
wraps up. -/
theorem drain_stopped {returned : Option π → DrainState config.echo κ η → Prop}
    {raised : Raised → DrainState config.echo κ η → Prop}
    (ran : drainChunks config reads start = .ok false state)
    (speaks : ∀ error, signal config .cancelled state.capturing = some error →
      raised error { state with capturing := completing config .cancelled state.capturing })
    (left : signal config .cancelled state.capturing = none → ¬Preserves config →
      raised .cancelled { state with capturing := completing config .cancelled state.capturing })
    (preserved : signal config .cancelled state.capturing = none → Preserves config →
      Ends (wrapUp config finalizing) returned raised
        { state with capturing := completing config .cancelled state.capturing }) :
    Ends (drain config reads finalizing) returned raised start := by
  refine .bind (.handle (.bind (.of_ok ran (.returns ?_))))
  refine .bind (complete_ends (fun silent => ?_) speaks)
  have decided : (config.captureSink.isNone || config.discardOnCancel) = true ↔
      ¬Preserves config := by
    unfold Preserves
    cases config.captureSink <;> simp
  exact .branch (fun gone => .raises (left silent (decided.mp gone))) fun kept =>
    preserved silent (not_not.mp fun gone => kept (decided.mpr gone))

/-- The completion of the measurement is not what a wrap-up looks at. -/
theorem wrapUp_ends : Ends (wrapUp config finalizing)
    (fun captured after => outcome (wrapUp config finalizing) state = .ok captured ∧
      after.capturing.completed = (completing config how state.capturing).completed)
    (fun error after => outcome (wrapUp config finalizing) state = .error error ∧
      after.capturing.completed = (completing config how state.capturing).completed)
    { state with capturing := completing config how state.capturing } := by
  have same : outcome (wrapUp config finalizing)
      { state with capturing := completing config how state.capturing } =
        outcome (wrapUp config finalizing) state := outcome_wrapUp_congr rfl rfl
  refine (ends_of_outcome.both (unreported_wrapUp ⟨rfl, rfl⟩)).mono ?_ ?_
  · exact fun _ _ ended => ⟨same.symm.trans ended.1, ended.2.1⟩
  · exact fun _ _ ended => ⟨same.symm.trans ended.1, ended.2.1⟩

theorem Fails.ends (fails : Fails config reads finalizing start error how state) :
    Ends (drain config reads finalizing) (fun _ _ => False) (GivesUp config how error state)
      start := by
  cases fails with
  | loop ran => exact drain_raised (.bind (.of_error ran giveUp_ends))
  | ended ran raised =>
      refine drain_raised (.bind (.of_ok ran (.bind (.of_eq (finishDrain_eof _) ?_))))
      exact .bind (.of_error raised giveUp_ends)
  | stopped ran preserves raised =>
      refine drain_stopped ran (fun worse speaks => ⟨?_, rfl⟩)
        (fun _ gone => absurd preserves gone) fun silent _ => ?_
      · rw [speaks]
        rfl
      · refine wrapUp_ends.mono ?_ ?_
        · rintro value after ⟨returned, -⟩
          cases raised.symm.trans returned
        · rintro worse after ⟨raises, completed⟩
          cases raised.symm.trans raises
          refine ⟨?_, completed⟩
          rw [silent]
          rfl
  | left ran gone =>
      refine drain_stopped ran (fun worse speaks => ⟨?_, rfl⟩) (fun silent _ => ⟨?_, rfl⟩)
        fun _ preserves => absurd preserves gone
      · rw [speaks]
        rfl
      · rw [silent]
        rfl

/-- The measurement is completed, and the hooks raise nothing. -/
def Settles (config : StreamConfig κ ρ φ π η) (how : StreamOperationOutcome)
    (captured : Option π) (state : DrainState config.echo κ η) (value : Option π)
    (after : DrainState config.echo κ η) : Prop :=
  value = captured ∧ signal config how state.capturing = none ∧
    after.capturing.completed = (completing config how state.capturing).completed

/-- The hooks raise; at the end of the stream the measurement is then completed again. -/
def Disturbed (config : StreamConfig κ ρ φ π η) (how : StreamOperationOutcome)
    (state after : DrainState config.echo κ η) : Prop :=
  (signal config how state.capturing).isSome = true ∧
    (how = .eof → after.capturing.completed.length = state.capturing.completed.length + 2) ∧
    (how = .cancelled → after.capturing.completed =
      (completing config how state.capturing).completed)

theorem measured_of_signal (speaks : signal config how state.capturing = some error) :
    ∃ measurement, state.capturing.measurement = some measurement := by
  unfold signal at speaks
  obtain ⟨measurement, found, _⟩ := Option.bind_eq_some_iff.mp speaks
  exact ⟨measurement, found⟩

theorem Returns.ends (returns : Returns config reads finalizing start captured how state) :
    Ends (drain config reads finalizing) (Settles config how captured state)
      (fun _ after => Disturbed config how state after) start := by
  cases returns with
  | ended ran returned =>
      refine .bind (.handle (.bind (.of_ok ran (.bind (.of_eq (finishDrain_eof _) ?_)))))
      refine .bind (.of_ok returned (.bind (complete_ends (fun silent => ?_) ?_)))
      · exact .returns (.returns (.returns ⟨rfl, silent, rfl⟩))
      · intro error speaks
        obtain ⟨measurement, found⟩ := measured_of_signal speaks
        have gave := @giveUp_ends _ _ _ _ _ (Option (Option π)) config
          { state with capturing := completing config .eof state.capturing } error (closing error)
          fun _ _ => False
        refine gave.mono (fun _ _ never => never.elim) fun worse after gaveUp => ?_
        refine ⟨Option.isSome_of_eq_some speaks, fun _ => ?_, nofun⟩
        rw [gaveUp.2]
        simp [completing, found]
  | stopped ran preserves returned =>
      refine drain_stopped ran (fun error speaks => ⟨?_, nofun, fun _ => rfl⟩)
        (fun _ gone => absurd preserves gone) fun silent _ => ?_
      · exact Option.isSome_of_eq_some speaks
      · refine wrapUp_ends.mono ?_ ?_
        · rintro value after ⟨returns, completed⟩
          cases returned.symm.trans returns
          exact ⟨rfl, silent, completed⟩
        · rintro worse after ⟨raises, -⟩
          cases returned.symm.trans raises

theorem exists_returns (returned : outcome (drain config reads finalizing) start = .ok captured) :
    ∃ how state, Returns config reads finalizing start captured how state ∧
      signal config how state.capturing = none := by
  unfold outcome at returned
  rcases fails_or_returns config reads finalizing start with
    ⟨error, how, state, fails⟩ | ⟨value, how, state, returns⟩
  · have ends := fails.ends
    unfold Ends at ends
    cases ran : drain config reads finalizing start with
    | ok value after =>
        rw [ran] at ends
        exact ends.elim
    | error worse after =>
        rw [ran] at returned
        cases returned
  · have ends := returns.ends
    unfold Ends at ends
    cases ran : drain config reads finalizing start with
    | ok value after =>
        rw [ran] at ends returned
        cases returned
        cases ends.1
        exact ⟨how, state, returns, ends.2.1⟩
    | error worse after =>
        rw [ran] at returned
        cases returned

theorem drainChunks_of_drain
    (returned : outcome (drain config reads finalizing) start = .ok captured) :
    ∃ ended state, drainChunks config reads start = .ok ended state := by
  obtain ⟨how, state, returns, -⟩ := exists_returns returned
  cases returns with
  | ended ran => exact ⟨_, _, ran⟩
  | stopped ran => exact ⟨_, _, ran⟩

/-- A drain that returns from the end of its stream has wrapped up there. -/
theorem outcome_wrapUp_of_drain (ran : drainChunks config reads start = .ok true state)
    (returned : outcome (drain config reads finalizing) start = .ok captured) :
    outcome (wrapUp config finalizing) state = .ok captured := by
  obtain ⟨how, final, returns, -⟩ := exists_returns returned
  cases returns with
  | ended other wrapped =>
      cases ran.symm.trans other
      rw [outcome, wrapped]
  | stopped other => cases ran.symm.trans other

/-! The drain that reaches the end of the stream, beside one that is cancelled. -/

def StreamRead.relaxed (uninterrupted : ρ → ρ) (read : StreamRead ρ) : StreamRead ρ :=
  { read with absorbing := uninterrupted read.absorbing }

section

variable {sink : CaptureSink κ ρ φ π} {heeded uninterrupted : ρ → ρ} {size : π → Nat}
  {Holds : List UInt8 → κ → Prop} {Recovers : List UInt8 → κ → ρ → φ → Prop}
  {Answers : List UInt8 → π → π → Prop} {read : StreamRead ρ} {taken : List (StreamRead ρ)} {final : π}
  {reached stopped : DrainState config.echo κ η}

theorem wrapUp_ok_iff (sunk : config.captureSink = some sink) :
    outcome (wrapUp config finalizing) state = .ok (some final) ↔
      outcome (flushEcho config) state = .ok () ∧
        outcome (sink.finalize finalizing) state.capturing.capture = .ok final := by
  rw [outcome_wrapUp, outcome_finalizeCapture, sunk, Option.elim_some]
  cases outcome (flushEcho config) state with
  | error error => simp [Except.bind]
  | ok value =>
      cases outcome (sink.finalize finalizing) state.capturing.capture with
      | error error => simp [Except.bind, Except.map]
      | ok answer => simp [Except.bind, Except.map]

/-- Where a read was cancelled, all there is was delivered. -/
theorem wrapUp_of_read_cut (delivered : Delivered config taken start reached)
    (returned : outcome (drain config taken finalizing) start = .ok captured) :
    outcome (wrapUp config finalizing) reached = .ok captured := by
  have ran := delivered.drainChunks []
  rw [List.append_nil, drainChunks_nil] at ran
  have wrapped := outcome_wrapUp_of_drain ran returned
  rw [← wrapped]
  exact outcome_wrapUp_congr rfl rfl

/-- Left to finish, the absorb is what the end of the stream finds. -/
theorem drainChunks_relaxed {whole : κ} (sunk : config.captureSink = some sink)
    (delivered : Delivered config taken start reached) (reply : read.reply = .ok chunk)
    (more : chunk ≠ []) (absorbed : sink.absorb chunk (uninterrupted read.absorbing)
      reached.capturing.capture = .ok () whole)
    (returned : outcome (drain config (taken ++ [read.relaxed uninterrupted]) finalizing) start =
      .ok captured) :
    ∃ state, drainChunks config (taken ++ [read.relaxed uninterrupted]) start = .ok true state ∧
      state.capturing.capture = whole := by
  have cons : drainChunks config [read.relaxed uninterrupted] reached = _ :=
    drainChunks_cons reply more
  have took : takeChunk config chunk (read.relaxed uninterrupted).absorbing reached = _ :=
    takeChunk_absorbed sunk absorbed
  rw [run_bind, took, run_bind] at cons
  have front := (delivered.drainChunks [read.relaxed uninterrupted]).trans cons
  obtain ⟨lines, same⟩ := fanOutChunk_kept chunk
    { reached with capturing := { reached.capturing.note chunk with capture := whole } }
  unfold left at same
  cases fanned : fanOutChunk config chunk
      { reached with capturing := { reached.capturing.note chunk with capture := whole } } with
  | ok value after =>
      rw [fanned] at front same
      refine ⟨_, front.trans drainChunks_nil, ?_⟩
      exact congrArg Capturing.capture same
  | error error after =>
      rw [fanned] at front
      obtain ⟨ended, state, ran⟩ := drainChunks_of_drain returned
      cases front.symm.trans ran

/-- Where an absorb was cancelled, the interrupted chunk is what may be missing. -/
theorem wrapUp_of_absorb_cut
    (law : Interruptible sink heeded uninterrupted size Holds Recovers Answers)
    (sunk : config.captureSink = some sink) (delivered : Delivered config taken start reached)
    (holds : Holds [] start.capturing.capture) (reply : read.reply = .ok chunk)
    (more : chunk ≠ [])
    (took : takeChunk config chunk read.absorbing reached = .ok false stopped)
    (returned : outcome (drain config (taken ++ [read.relaxed uninterrupted]) finalizing) start =
      .ok (some final)) :
    (outcome (flushEcho config) reached = .ok () ∧
      Recovers (taken.flatMap StreamRead.data ++ chunk) reached.capturing.capture read.absorbing
        finalizing) ↔
      ∃ answer, outcome (wrapUp config finalizing) stopped = .ok (some answer) ∧
        Answers (taken.flatMap StreamRead.data ++ chunk) answer final := by
  have held := delivered.holds law sunk holds
  rw [List.nil_append] at held
  obtain ⟨whole, relaxed, -, absorbed | ⟨after, cut, recovers⟩⟩ :=
    law.absorb chunk read.absorbing held
  · rw [takeChunk_absorbed sunk absorbed, run_bind] at took
    split at took
    · cases took
    · cases took
  · rw [takeChunk_cut sunk cut] at took
    cases took
    have finalized : outcome (sink.finalize finalizing) whole = .ok final := by
      obtain ⟨state, ran, captured⟩ :=
        drainChunks_relaxed sunk delivered reply more relaxed returned
      rw [← captured]
      exact ((wrapUp_ok_iff sunk).mp (outcome_wrapUp_of_drain ran returned)).2
    rw [recovers finalizing final finalized]
    simp only [wrapUp_ok_iff sunk]
    have echo : outcome (flushEcho config)
        { reached with capturing := { reached.capturing.note chunk with capture := after } } =
          outcome (flushEcho config) reached := outcome_flushEcho rfl
    constructor
    · rintro ⟨flushed, answer, answered, alike⟩
      exact ⟨answer, ⟨echo.trans flushed, answered⟩, alike⟩
    · rintro ⟨answer, ⟨flushed, answered⟩, alike⟩
      exact ⟨echo.symm.trans flushed, answer, answered, alike⟩

/-! A drain whose cancellation was displaced. -/

theorem drain_congr {others : List (StreamRead ρ)}
    (same : drainChunks config reads start = drainChunks config others start) :
    drain config reads finalizing start = drain config others finalizing start := by
  unfold drain drainToEnd
  simp only [run_bind, run_tryCatch, same]

theorem Delivered.snoc (delivered : Delivered config taken start reached)
    (reply : read.reply = .ok chunk) (more : chunk ≠ [])
    (took : takeChunk config chunk read.absorbing reached = .ok true stopped) :
    Delivered config (taken ++ [read]) start stopped := by
  induction delivered with
  | none state => exact .next reply more took (.none _)
  | next answer some first _ ih => exact .next answer some first (ih took)

/-- The chunk is delivered, as it would have been without a cancellation. -/
theorem Displaced.delivered
    (law : Interruptible sink heeded uninterrupted size Holds Recovers Answers)
    (sunk : config.captureSink = some sink) (holds : Holds [] start.capturing.capture)
    {rest : List (StreamRead ρ)}
    (displaced : Displaced config heeded start reads taken read rest)
    (returned : outcome (drain config (taken ++ [read.relaxed uninterrupted]) finalizing) start =
      .ok captured) :
    reads = (taken ++ [read]) ++ rest ∧
      outcome (drain config (taken ++ [read]) finalizing) start = .ok captured ∧
        ∃ reached, Delivered config (taken ++ [read]) start reached := by
  cases displaced with
  | @absorb read taken rest chunk reached stopped delivered reply more struck displaced =>
      obtain ⟨whole, relaxed, _, absorbed | ⟨after, cut, _⟩⟩ :=
        law.absorb chunk read.absorbing (delivered.holds law sunk holds)
      · have alike : takeChunk config chunk read.absorbing reached =
            takeChunk config chunk (read.relaxed uninterrupted).absorbing reached :=
          (takeChunk_absorbed sunk absorbed).trans (takeChunk_absorbed sunk relaxed).symm
        have cons : drainChunks config [read.relaxed uninterrupted] reached = _ :=
          drainChunks_cons reply more
        have same : drainChunks config (taken ++ [read]) start =
            drainChunks config (taken ++ [read.relaxed uninterrupted]) start := by
          rw [delivered.drainChunks, delivered.drainChunks, cons, drainChunks_cons reply more,
            run_bind, run_bind, alike]
        have returned : outcome (drain config (taken ++ [read]) finalizing) start =
            .ok captured := by
          unfold outcome at returned ⊢
          rw [drain_congr same]
          exact returned
        refine ⟨by simp, returned, ?_⟩
        obtain ⟨ended, state, ran⟩ := drainChunks_of_drain returned
        rw [delivered.drainChunks, drainChunks_cons reply more, run_bind] at ran
        cases took : takeChunk config chunk read.absorbing reached with
        | error error after =>
            rw [took] at ran
            cases ran
        | ok value after =>
            cases value with
            | false => exact absurd took (displaced after)
            | true => exact ⟨after, delivered.snoc reply more took⟩
      · exact absurd (takeChunk_cut sunk cut) (displaced _)

end

end Cuprum.Drain
