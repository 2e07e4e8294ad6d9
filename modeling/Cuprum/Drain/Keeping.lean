import Cuprum.Drain.Cancelled

namespace Cuprum.Drain

open Effect
open Capture (CaptureStreamName DecodeSettings)
open Codec (ByteOrder)
open Relay (StreamOperationMeasurement StreamOperationOutcome)

variable {κ ρ φ π η : Type}

section

variable (config : StreamConfig κ ρ φ π η) (heeded uninterrupted : ρ → ρ)
  (Recovers : List UInt8 → κ → ρ → φ → Prop) (Answers : List UInt8 → π → π → Prop)
  (reads : List (StreamRead ρ)) (finalizing : φ) (start : DrainState config.echo κ η)

/-- What comes of the drain if the stream ends after these chunks, the last of them
absorbed without an interruption. -/
def reachingEnd (taken : List (StreamRead ρ)) (interrupted : Option (StreamRead ρ)) :
    Except Raised (Option π) :=
  outcome (drain config (taken ++ (interrupted.map (·.relaxed uninterrupted)).toList) finalizing)
    start

def takenIn (taken : List (StreamRead ρ)) (interrupted : Option (StreamRead ρ)) : List UInt8 :=
  (taken ++ interrupted.toList).flatMap StreamRead.data

structure KeepsWhatItTook : Prop where
  returns : ∀ {taken interrupted final},
    Struck config heeded start reads taken interrupted → Preserves config →
      reachingEnd config uninterrupted finalizing start taken interrupted = .ok (some final) →
        ∃ answer, outcome (drain config reads finalizing) start = .ok (some answer) ∧
          (answer = final ∨
            interrupted.isSome = true ∧ Answers (takenIn taken interrupted) answer final)
  discards : ∀ {taken interrupted}, Struck config heeded start reads taken interrupted →
    ¬Preserves config → outcome (drain config reads finalizing) start = .error .cancelled
  raises : ∀ {error how state}, Fails config reads finalizing start error how state →
    outcome (drain config reads finalizing) start = .error error
  once : (left (drain config reads finalizing) start).capturing.completed.length =
    start.capturing.completed.length + start.capturing.measurement.isSome.toNat

/-- The next read, if there is one, is the end of the stream or is cancelled. -/
def Quiet (reads : List (StreamRead ρ)) : Prop :=
  ∀ read ∈ reads.head?, read.reply = .ok [] ∨ read.reply = .error .cancelled

structure Undisturbed : Prop where
  /-- The hooks raise nothing but what is being raised. -/
  raising : ∀ {error how state}, Fails config reads finalizing start error how state →
    ∀ other, signal config how state.capturing = some other → other = error
  /-- The hooks raise nothing at the end of the stream. -/
  ending : ∀ {captured state}, Returns config reads finalizing start captured .eof state →
    signal config .eof state.capturing = none
  /-- A cancelled drain is not disturbed by its hooks, nor by the echo of a chunk that was
  interrupted, nor does its capture fail unheard. -/
  keeping : ∀ {taken interrupted reached stopped final},
    Cut config start reads taken interrupted reached stopped → Preserves config →
      reachingEnd config uninterrupted finalizing start taken interrupted = .ok (some final) →
        signal config .cancelled stopped.capturing = none ∧
          ∀ read, interrupted = some read → outcome (flushEcho config) reached = .ok () ∧
            Recovers (takenIn taken interrupted) reached.capturing.capture read.absorbing
              finalizing
  /-- No chunk follows one whose failure displaced a cancellation. -/
  stopping : ∀ {taken read rest final},
    Displaced config heeded start reads taken read rest → Preserves config →
      reachingEnd config uninterrupted finalizing start taken (some read) = .ok (some final) →
        Quiet rest
  /-- Where it is to be discarded, the drain fails with another cancellation. -/
  discarding : ∀ {taken read rest}, Displaced config heeded start reads taken read rest →
    ¬Preserves config → ∃ how state, Fails config reads finalizing start .cancelled how state

end

variable {config : StreamConfig κ ρ φ π η} {sink : CaptureSink κ ρ φ π}
  {heeded uninterrupted : ρ → ρ} {size : π → Nat} {Holds : List UInt8 → κ → Prop}
  {Recovers : List UInt8 → κ → ρ → φ → Prop} {Answers : List UInt8 → π → π → Prop}
  {reads taken rest : List (StreamRead ρ)} {finalizing : φ} {read : StreamRead ρ}
  {start state reached stopped : DrainState config.echo κ η} {interrupted : Option (StreamRead ρ)}
  {final answer : π} {error : Raised} {how : StreamOperationOutcome} {captured : Option π}

theorem Fails.outcome (fails : Fails config reads finalizing start error how state) :
    outcome (drain config reads finalizing) start =
      .error ((signal config how state.capturing).getD error) := by
  refine outcome_eq (fails.ends.mono (fun _ _ never => never.elim) ?_)
  exact fun _ _ gaveUp => congrArg Except.error gaveUp.1.symm

theorem Fails.unreported (fails : Fails config reads finalizing start error how state) :
    Unreported start state := by
  have looped : Ends (drainChunks config reads) _ _ start := unreported_drainChunks ⟨rfl, rfl⟩
  unfold Ends at looped
  cases fails with
  | loop ran =>
      rw [ran] at looped
      exact looped
  | ended ran raised =>
      rw [ran] at looped
      have wrapped : Ends (wrapUp config finalizing) _ _ _ := unreported_wrapUp looped
      unfold Ends at wrapped
      rw [raised] at wrapped
      exact wrapped
  | stopped ran =>
      rw [ran] at looped
      exact looped
  | left ran =>
      rw [ran] at looped
      exact looped

theorem Returns.unreported (returns : Returns config reads finalizing start captured how state) :
    Unreported start state := by
  have looped : Ends (drainChunks config reads) _ _ start := unreported_drainChunks ⟨rfl, rfl⟩
  unfold Ends at looped
  cases returns with
  | ended ran returned =>
      rw [ran] at looped
      have wrapped : Ends (wrapUp config finalizing) _ _ _ := unreported_wrapUp looped
      unfold Ends at wrapped
      rw [returned] at wrapped
      exact wrapped
  | stopped ran =>
      rw [ran] at looped
      exact looped

theorem Returns.outcome (returns : Returns config reads finalizing start captured how state)
    (silent : signal config how state.capturing = none) :
    outcome (drain config reads finalizing) start = .ok captured := by
  refine outcome_eq (returns.ends.mono ?_ ?_)
  · exact fun _ _ settles => congrArg Except.ok settles.1.symm
  · intro _ _ disturbed
    rw [Disturbed, silent] at disturbed
    exact absurd disturbed.1 (by simp)

/-- One completion, if the measurement was started. -/
theorem length_completing (how : StreamOperationOutcome) (unreported : Unreported start state)
    (ends : Ends (drain config reads finalizing)
      (fun _ after => after.capturing.completed =
        (completing config how state.capturing).completed)
      (fun _ after => after.capturing.completed =
        (completing config how state.capturing).completed) start) :
    (left (drain config reads finalizing) start).capturing.completed.length =
      start.capturing.completed.length + start.capturing.measurement.isSome.toNat := by
  have completed : (left (drain config reads finalizing) start).capturing.completed =
      (completing config how state.capturing).completed := ends_left_iff.mp ends
  rw [completed, ← unreported.1, ← unreported.2]
  unfold completing
  cases state.capturing.measurement <;> simp

/-- At a cut, the wrap-up answers as the end of the stream would have, if the capture recovers. -/
theorem wrapUp_of_cut
    (law : Interruptible sink heeded uninterrupted size Holds Recovers Answers)
    (sunk : config.captureSink = some sink) (holds : Holds [] start.capturing.capture)
    (cut : Cut config start reads taken interrupted reached stopped)
    (returned : reachingEnd config uninterrupted finalizing start taken interrupted =
      .ok (some final)) :
    (∀ read, interrupted = some read → Effect.outcome (flushEcho config) reached = .ok () ∧
      Recovers (takenIn taken interrupted) reached.capturing.capture read.absorbing finalizing) ↔
      ∃ answer, Effect.outcome (wrapUp config finalizing) stopped = .ok (some answer) ∧
        (answer = final ∨
          interrupted.isSome = true ∧ Answers (takenIn taken interrupted) answer final) := by
  cases cut with
  | read delivered reply =>
      have wrapped := wrapUp_of_read_cut delivered (by simpa [reachingEnd] using returned)
      simp [wrapped]
  | @absorb read taken rest chunk reached stopped delivered reply more took =>
      have data : read.data = chunk := by simp [StreamRead.data, reply, Except.toOption]
      have bytes : takenIn taken (some read) = taken.flatMap StreamRead.data ++ chunk := by
        simp [takenIn, data]
      have compared := wrapUp_of_absorb_cut law sunk delivered holds reply more took returned
      rw [bytes]
      simp only [Option.some.injEq, forall_eq', Option.isSome_some, true_and]
      rw [compared]
      refine exists_congr fun answer => and_congr_right fun _ => ?_
      constructor
      · exact .inr
      · rintro (rfl | alike)
        · exact law.same _ _
        · exact alike

theorem Undisturbed.once
    (undisturbed :
      Undisturbed config heeded uninterrupted Recovers reads finalizing start) :
    (left (drain config reads finalizing) start).capturing.completed.length =
      start.capturing.completed.length + start.capturing.measurement.isSome.toNat := by
  rcases fails_or_returns config reads finalizing start with
    ⟨error, how, state, fails⟩ | ⟨captured, how, state, returns⟩
  · refine length_completing how fails.unreported (fails.ends.mono ?_ ?_)
    · exact fun _ _ never => never.elim
    · exact fun _ _ gaveUp => gaveUp.2
  · refine length_completing how returns.unreported (returns.ends.mono ?_ ?_)
    · exact fun _ _ settles => settles.2.2
    · intro _ _ disturbed
      cases returns with
      | ended ran wrapped =>
          have silent := undisturbed.ending (.ended ran wrapped)
          rw [Disturbed, silent] at disturbed
          exact absurd disturbed.1 (by simp)
      | stopped => exact disturbed.2.2 rfl

/-- Hooks that raise at the end of the stream have the measurement completed twice. -/
theorem Returns.silent (returns : Returns config reads finalizing start captured .eof state)
    (once : (left (drain config reads finalizing) start).capturing.completed.length =
      start.capturing.completed.length + start.capturing.measurement.isSome.toNat) :
    signal config .eof state.capturing = none := by
  by_contra speaks
  have twice : Ends (drain config reads finalizing)
      (fun _ after => after.capturing.completed.length =
        start.capturing.completed.length + 2)
      (fun _ after => after.capturing.completed.length =
        start.capturing.completed.length + 2) start := by
    refine returns.ends.mono (fun _ _ settles => absurd settles.2.1 speaks) ?_
    intro _ _ disturbed
    rw [disturbed.2.1 rfl, returns.unreported.1]
  have length := ends_left_iff.mp twice
  have atMost := start.capturing.measurement.isSome.toNat_le
  omega

theorem Undisturbed.raises
    (undisturbed : Undisturbed config heeded uninterrupted Recovers reads finalizing start)
    (fails : Fails config reads finalizing start error how state) :
    Effect.outcome (drain config reads finalizing) start = .error error := by
  rw [fails.outcome]
  cases speaks : signal config _ _ with
  | none => rfl
  | some other => exact congrArg Except.error (undisturbed.raising fails other speaks)

/-- A drain answers with what its capture finalizes to. -/
theorem finalized_of_drain (sunk : config.captureSink = some sink)
    (returned : Effect.outcome (drain config reads finalizing) start = .ok (some answer)) :
    ∃ ended stopped, drainChunks config reads start = .ok ended stopped ∧
      Effect.outcome (sink.finalize finalizing) stopped.capturing.capture = .ok answer := by
  obtain ⟨how, state, returns, -⟩ := exists_returns returned
  cases returns with
  | @ended middle _ ran wrapped =>
      have wrapped : Effect.outcome (wrapUp config finalizing) middle = .ok (some answer) := by
        rw [Effect.outcome, wrapped]
      exact ⟨true, middle, ran, ((wrapUp_ok_iff sunk).mp wrapped).2⟩
  | stopped ran _ wrapped => exact ⟨false, _, ran, ((wrapUp_ok_iff sunk).mp wrapped).2⟩

/-- A drain that went on past a displaced cancellation answers as the end of the stream
would have, if it has ended there or is cancelled at once. -/
theorem drain_of_displaced
    (law : Interruptible sink heeded uninterrupted size Holds Recovers Answers)
    (sunk : config.captureSink = some sink) (holds : Holds [] start.capturing.capture)
    (displaced : Displaced config heeded start reads taken read rest)
    (preserves : Preserves config)
    (undisturbed : ∀ {reached stopped},
      Cut config start reads (taken ++ [read]) none reached stopped →
        signal config .cancelled stopped.capturing = none)
    (returned : reachingEnd config uninterrupted finalizing start taken (some read) =
      .ok (some final)) (quiet : Quiet rest) :
    Effect.outcome (drain config reads finalizing) start = .ok (some final) := by
  obtain ⟨rfl, answered, reached, delivered⟩ := displaced.delivered law sunk holds returned
  have at_end (same : drainChunks config rest reached = drainChunks config [] reached) :
      Effect.outcome (drain config (taken ++ [read] ++ rest) finalizing) start =
        .ok (some final) := by
    have alike : drainChunks config (taken ++ [read] ++ rest) start =
        drainChunks config (taken ++ [read]) start := by
      have whole := delivered.drainChunks []
      rw [List.append_nil] at whole
      rw [delivered.drainChunks, same, whole]
    unfold Effect.outcome at answered ⊢
    rw [drain_congr alike]
    exact answered
  cases rest with
  | nil => exact at_end rfl
  | cons next rest =>
      rcases quiet next rfl with ended | cancelled
      · exact at_end (congrFun (drainChunks_end ended) reached)
      · have cut : Cut config start (taken ++ [read] ++ next :: rest) (taken ++ [read]) none
            reached reached := .read delivered cancelled
        have wrapped := wrapUp_of_read_cut delivered answered
        exact (Returns.stopped cut.stops preserves wrapped).outcome (undisturbed cut)

theorem quiet_of_displaced
    (law : Interruptible sink heeded uninterrupted size Holds Recovers Answers)
    (sunk : config.captureSink = some sink) (holds : Holds [] start.capturing.capture)
    (displaced : Displaced config heeded start reads taken read rest)
    (returned : reachingEnd config uninterrupted finalizing start taken (some read) =
      .ok (some final))
    (answered : Effect.outcome (drain config reads finalizing) start = .ok (some answer))
    (alike : size final = (takenIn taken (some read)).length →
      size answer = (takenIn taken (some read)).length) : Quiet rest := by
  obtain ⟨rfl, finished, reached, delivered⟩ := displaced.delivered law sunk holds returned
  have held := delivered.holds law sunk holds
  rw [List.nil_append] at held
  have bytes : takenIn taken (some read) = (taken ++ [read]).flatMap StreamRead.data := rfl
  have told : size final = (takenIn taken (some read)).length := by
    obtain ⟨ended, stopped, ran, finalized⟩ := finalized_of_drain sunk finished
    have whole := delivered.drainChunks []
    rw [List.append_nil, drainChunks_nil, ran] at whole
    cases whole
    exact law.tells held finalized
  obtain ⟨ended, stopped, ran, finalized⟩ := finalized_of_drain sunk answered
  rw [delivered.drainChunks] at ran
  intro next first
  cases rest with
  | nil => cases first
  | cons head rest =>
      cases first
      cases reply : next.reply with
      | error error =>
          right
          by_contra other
          unfold drainChunks at ran
          simp only [reply] at ran
          rw [if_neg fun cancelled => other (by rw [cancelled])] at ran
          contradiction
      | ok chunk =>
          left
          by_contra more
          have more : chunk ≠ [] := fun empty => more (by rw [empty])
          have exceeds := drainChunks_exceeds law sunk held reply more ran finalized
          rw [alike told, bytes] at exceeds
          exact absurd exceeds (lt_irrefl _)

theorem fails_cancelled
    (raises : ∀ {error how state}, Fails config reads finalizing start error how state →
      Effect.outcome (drain config reads finalizing) start = .error error)
    (once : (left (drain config reads finalizing) start).capturing.completed.length =
      start.capturing.completed.length + start.capturing.measurement.isSome.toNat)
    (gone : ¬Preserves config)
    (cancelled : Effect.outcome (drain config reads finalizing) start = .error .cancelled) :
    ∃ how state, Fails config reads finalizing start .cancelled how state := by
  rcases fails_or_returns config reads finalizing start with
    ⟨error, how, state, fails⟩ | ⟨captured, how, state, returns⟩
  · cases (raises fails).symm.trans cancelled
    exact ⟨how, state, fails⟩
  · cases returns with
    | ended ran wrapped =>
        have returns : Returns config reads finalizing start captured .eof state :=
          .ended ran wrapped
        cases (returns.outcome (returns.silent once)).symm.trans cancelled
    | stopped _ preserves => exact absurd preserves gone

section

variable (law : Interruptible sink heeded uninterrupted size Holds Recovers Answers)
  (sunk : config.captureSink = none ∨ config.captureSink = some sink)
  (holds : Holds [] start.capturing.capture)

include law sunk holds

theorem KeepsWhatItTook.undisturbed
    (keeps : KeepsWhatItTook config heeded uninterrupted Answers reads finalizing start) :
    Undisturbed config heeded uninterrupted Recovers reads finalizing start := by
  have attached : Preserves config → config.captureSink = some sink := fun preserves =>
    sunk.resolve_left fun none => by simp [Preserves, none] at preserves
  refine ⟨fun fails other speaks => ?_, fun returns => returns.silent keeps.once,
    fun cut preserves returned => ?_, fun displaced preserves returned => ?_,
    fun displaced gone => ?_⟩
  · have raised := keeps.raises fails
    rw [fails.outcome, speaks] at raised
    exact Except.error.inj raised
  · obtain ⟨answer, answered, alike⟩ :=
      keeps.returns (cut.struck law sunk holds) preserves returned
    obtain ⟨how, state, returns, silent⟩ := exists_returns answered
    have stops := cut.stops
    cases returns with
    | ended ran => cases stops.symm.trans ran
    | stopped ran _ wrapped =>
        cases stops.symm.trans ran
        exact ⟨silent, (wrapUp_of_cut law (attached preserves) holds cut returned).mpr
          ⟨answer, wrapped, alike⟩⟩
  · obtain ⟨answer, answered, alike⟩ := keeps.returns displaced.struck preserves returned
    refine quiet_of_displaced law (attached preserves) holds displaced returned answered ?_
    intro told
    rcases alike with rfl | ⟨-, alike⟩
    · exact told
    · exact law.alike alike told
  · exact fails_cancelled keeps.raises keeps.once gone (keeps.discards displaced.struck gone)

theorem Undisturbed.keeps
    (undisturbed : Undisturbed config heeded uninterrupted Recovers reads finalizing start) :
    KeepsWhatItTook config heeded uninterrupted Answers reads finalizing start := by
  have attached : Preserves config → config.captureSink = some sink := fun preserves =>
    sunk.resolve_left fun none => by simp [Preserves, none] at preserves
  refine ⟨fun struck preserves returned => ?_, fun struck gone => ?_, undisturbed.raises,
    undisturbed.once⟩
  · have sunk := attached preserves
    rcases struck.cut_or_displaced with ⟨reached, stopped, cut⟩ | ⟨read, rest, rfl, displaced⟩
    · obtain ⟨silent, recovers⟩ := undisturbed.keeping cut preserves returned
      obtain ⟨answer, wrapped, alike⟩ := (wrapUp_of_cut law sunk holds cut returned).mp recovers
      exact ⟨answer, (Returns.stopped cut.stops preserves wrapped).outcome silent, alike⟩
    · refine ⟨_, ?_, .inl rfl⟩
      have quiet := undisturbed.stopping displaced preserves returned
      refine drain_of_displaced law sunk holds displaced preserves ?_ returned quiet
      intro reached stopped cut
      have answered := (displaced.delivered law sunk holds returned).2.1
      exact (undisturbed.keeping cut preserves (by simpa [reachingEnd] using answered)).1
  · rcases struck.cut_or_displaced with ⟨reached, stopped, cut⟩ | ⟨read, rest, rfl, displaced⟩
    · exact undisturbed.raises (.left cut.stops gone)
    · obtain ⟨how, state, fails⟩ := undisturbed.discarding displaced gone
      exact undisturbed.raises fails

end

/-! The drain of a captured stream. -/

/-- The stream as its policy captures it, if it is captured. -/
def StreamConfig.capturing (policy : CapturePolicy) (stream : CaptureStreamName)
    (settings : DecodeSettings) (byteOrder : ByteOrder) (captured : Bool)
    (config : StreamConfig policy.Accumulator AbsorbReplies FinalizeReplies policy.Final η) :
    StreamConfig policy.Accumulator AbsorbReplies FinalizeReplies policy.Final η :=
  { config with
    captureSink := if captured then some (policy.sink stream settings byteOrder) else none }

def DrainState.fresh (echo : EchoConfig) (capture : κ) (lines : η)
    (measurement : Option StreamOperationMeasurement) : DrainState echo κ η where
  echo := .initial echo
  capturing := { capture, lines, measurement }

theorem cancelled_drain_keeps_iff (policy : CapturePolicy) (stream : CaptureStreamName)
    (settings : DecodeSettings) (byteOrder : ByteOrder) (captured : Bool)
    (config : StreamConfig policy.Accumulator AbsorbReplies FinalizeReplies policy.Final η)
    (reads : List (StreamRead AbsorbReplies)) (finalizing : FinalizeReplies) (lines : η)
    (measurement : Option StreamOperationMeasurement) :
    KeepsWhatItTook (config.capturing policy stream settings byteOrder captured)
        AbsorbReplies.heeded AbsorbReplies.uninterrupted
        (fun handed => policy.Answers settings byteOrder handed) reads finalizing
        (.fresh config.echo (policy.accumulator stream settings) lines measurement) ↔
      Undisturbed (config.capturing policy stream settings byteOrder captured)
        AbsorbReplies.heeded AbsorbReplies.uninterrupted
        (fun handed => policy.Recovers settings byteOrder handed) reads finalizing
        (.fresh config.echo (policy.accumulator stream settings) lines measurement) := by
  have law := interruptible stream settings byteOrder policy
  have holds := holds_accumulator policy stream settings
  have sunk : (config.capturing policy stream settings byteOrder captured).captureSink = none ∨
      (config.capturing policy stream settings byteOrder captured).captureSink =
        some (policy.sink stream settings byteOrder) := by
    cases captured with
    | false => exact .inl rfl
    | true => exact .inr rfl
  exact ⟨fun keeps => keeps.undisturbed law sunk holds,
    fun undisturbed => undisturbed.keeps law sunk holds⟩

/-! An append fails, the drain is cancelled before it hears of that, and nobody is told. -/

def quietEcho : EchoConfig where
  decoder := ⟨Unit, (), fun _ _ _ => some ([], ())⟩
  hasBuffer := true
  bestEffort := true
  bound := none
  sink := fun _ => none
  delivery := none
  hook := fun _ => none

def plainStream : StreamConfig (CapturePolicy.file Spill.eager).Accumulator AbsorbReplies
    FinalizeReplies (CapturePolicy.file Spill.eager).Final Unit where
  echo := quietEcho
  echoOutput := false
  captureSink := none
  lines := none
  discardOnCancel := false
  settlementStarted := false
  streamHook := fun _ => none
  clock := 0

def spilledRead : StreamRead AbsorbReplies :=
  ⟨.ok [0x61], {}⟩

def unheardRead : StreamRead AbsorbReplies :=
  ⟨.ok [0x62], { write := { failure := some "OSError", interruption := some .after } }⟩

theorem unheard_append_not_kept :
    ¬ ∀ (policy : CapturePolicy) (settings : DecodeSettings)
      (config : StreamConfig policy.Accumulator AbsorbReplies FinalizeReplies policy.Final Unit)
      (reads : List (StreamRead AbsorbReplies)),
      KeepsWhatItTook (config.capturing policy .stdout settings .little true)
        AbsorbReplies.heeded AbsorbReplies.uninterrupted
        (fun handed => policy.Answers settings .little handed) reads {}
        (.fresh config.echo (policy.accumulator .stdout settings) () none) := by
  intro keeps
  have kept := keeps (.file Spill.eager) Spill.byteMode plainStream [spilledRead, unheardRead]
  have struck : Struck
      (plainStream.capturing (.file Spill.eager) .stdout Spill.byteMode .little true)
      AbsorbReplies.heeded (.fresh quietEcho {} () none) ([spilledRead] ++ unheardRead :: [])
      [spilledRead] (some unheardRead) :=
    .absorb (.next rfl (by simp) rfl (.none _)) rfl (by simp) rfl
  obtain ⟨answer, answered, same | ⟨-, same | memory⟩⟩ := kept.returns struck ⟨rfl, rfl⟩ rfl
  · cases answered
    exact nomatch congrArg (·.capture.storageFailed) same
  · cases answered
    exact nomatch congrArg (·.capture.storageFailed) same
  · cases answered
    exact nomatch memory.storage

end Cuprum.Drain
