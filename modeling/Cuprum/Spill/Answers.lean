import Cuprum.Spill.Finishing

namespace Cuprum.Spill

open Cuprum.Effect
open Cuprum.Capture (CaptureStreamName DecodeSettings Payload render)
open Cuprum.Codec (ByteOrder)

variable {policy : FileBackedCapture} {stream : CaptureStreamName} {settings : DecodeSettings}
  {byteOrder : ByteOrder} {capture : FileAccumulator} {spill : SpillHandle}

/-! What a finalization comes to. -/

/-- From memory, the stream as it was handed over. -/
def bufferedAnswer (stream : CaptureStreamName) (settings : DecodeSettings)
    (byteOrder : ByteOrder) (handed : List UInt8) (failed : Bool) : Except Raised CaptureFinal :=
  match render byteOrder handed settings with
  | none => .error .undecodable
  | some payload =>
      .ok
        { payload := some payload
          capture := ⟨stream, handed.length, .memory, none, false, failed⟩
          handle := none }

/-- From a file, by how its flush and, in byte mode, the read-back come out. -/
def spilledAnswer (stream : CaptureStreamName) (settings : DecodeSettings) (keep : Bool)
    (total : Nat) (file : SpillFile) (failed : Bool) (flush read : Reply) :
    Except Raised CaptureFinal :=
  if flush.cancelled || (settings.captureBytes && read.cancelled) then .error .cancelled
  else .ok
    { payload :=
        if settings.captureBytes && read.failure.isNone then
          some (.bytes (file.flush flush.toAnswer).disk)
        else none
      capture := ⟨stream, total, .file, some 0, !keep,
        failed || flush.failure.isSome || (settings.captureBytes && read.failure.isSome)⟩
      handle := some 0 }

theorem outcome_buffered {handed : List UInt8} {flush read : Reply} (path : capture.path = none)
    (buffer : capture.buffer = some handed) (total : capture.total = handed.length) :
    outcome (finalize stream settings byteOrder flush read) capture =
      bufferedAnswer stream settings byteOrder handed capture.failed.isSome := by
  apply outcome_eq
  refine .bind (.reads ?_)
  simp only [path]
  refine .bind (.reads ?_)
  simp only [buffer, Option.getD_some]
  unfold bufferedAnswer
  cases render byteOrder handed settings with
  | none => exact .raises rfl
  | some payload =>
      refine .returns ?_
      rw [total]

/-- What a flush leaves of a spilled capture. -/
structure FlushedFile (policy : FileBackedCapture) (capture : FileAccumulator)
    (spill : SpillHandle) (reply : Reply) (after : FileAccumulator) : Prop where
  uncancelled : reply.cancelled = false
  spilled : Spilled policy after { spill with file := spill.file.flush reply.toAnswer }
  total : after.total = capture.total
  failed : after.failed.isSome = (capture.failed.isSome || reply.failure.isSome)

theorem flush_ends {reply : Reply} (spilled : Spilled policy capture spill)
    (opened : spill.file.closed = false) :
    Ends (flushBeforeReading stream reply) (fun _ => FlushedFile policy capture spill reply)
      (fun error _ => error = .cancelled ∧ reply.cancelled = true) capture := by
  have moved := @Spilled.onFile _ _ _ (·.flush reply.toAnswer) spilled
    (fun shut => shut) spilled.kept
  refine .bind (.reads ?_)
  simp only [spilled.file]
  refine .bind (exceptOsError_ends (.bind (open_ends spilled.found opened
    (blocking_ends ?_ ?_ ?_))))
  · intro uncancelled unharmed
    refine .returns (.updates ⟨uncancelled, { moved with }, rfl, ?_⟩)
    rw [unharmed, Option.isSome_none, Bool.or_false]
    rfl
  · intro name uncancelled refused
    refine ⟨fun _ _ => ?_, fun other => absurd rfl (other name)⟩
    refine .bind (.updates (.bind (.reads (.branch (fun _ => ?_) fun known => ?_))))
    · refine .bind (failStorage_ends fun events => .returns (.returns
        ⟨uncancelled, { moved with }, rfl, ?_⟩))
      rw [refused]
      exact (Bool.or_true _).symm
    · refine .returns (.returns ⟨uncancelled, { moved with }, rfl, ?_⟩)
      have harmed : capture.failed.isSome = true :=
        Option.isSome_iff_ne_none.mpr fun none => known (Option.isNone_iff_eq_none.mpr none)
      change capture.failed.isSome = _
      rw [harmed, Bool.true_or]
  · exact fun interrupted => ⟨nofun, fun _ => ⟨rfl, interrupted⟩⟩

theorem owned_eq (spilled : Spilled policy capture spill) :
    decide ((capture.handle.bind (capture.files[·]?)).map (·.keep) = some false) =
      !policy.keepFile := by
  rw [spilled.handle, Option.bind_some, spilled.found, Option.map_some, spilled.keep]
  cases policy.keepFile <;> rfl

theorem outcome_spilled {flush read : Reply} (spilled : Spilled policy capture spill)
    (opened : spill.file.closed = false) :
    outcome (finalize stream settings byteOrder flush read) capture =
      spilledAnswer stream settings policy.keepFile capture.total spill.file
        capture.failed.isSome flush read := by
  apply outcome_eq
  unfold spilledAnswer
  refine .bind (.reads ?_)
  simp only [spilled.path]
  refine .bind ((flush_ends spilled opened).mono ?_ ?_)
  · intro _ flushed here
    have owned := owned_eq here.spilled
    cases bytes : settings.captureBytes with
    | false =>
        refine .bind (.returns (.bind (.reads (.returns ?_))))
        rw [owned, here.uncancelled, here.total, here.failed, here.spilled.handle]
        simp
    | true =>
        refine .bind (exceptOsError_ends (.map (pathReadBytes_ends ?_ ?_ ?_)))
        · intro uncancelled accepted
          refine .bind (.reads (.returns ?_))
          rw [owned, here.uncancelled, here.total, here.failed, here.spilled.handle,
            here.spilled.found, uncancelled, accepted]
          simp
        · intro name uncancelled refused
          refine ⟨fun _ _ => ?_, fun other => absurd rfl (other name)⟩
          refine .bind (failStorage_ends fun events => .returns (.bind (.reads (.returns ?_))))
          have same : Spilled policy { flushed with failed := some name, events := events }
            _ := { here.spilled with }
          rw [owned_eq same, here.uncancelled, here.total, here.spilled.handle, uncancelled,
            refused]
          simp
        · intro interrupted
          refine ⟨nofun, fun _ => ?_⟩
          rw [interrupted, here.uncancelled]
          rfl
  · rintro error after ⟨rfl, interrupted⟩
    rw [interrupted]
    rfl

end Cuprum.Spill
