import Cuprum.Capture.Accumulators
import Cuprum.Drain.Loop
import Cuprum.Spill.Answers
import Cuprum.Spill.Honesty
import Cuprum.Spill.Interruption

namespace Cuprum.Drain

open Effect
open Capture (BoundedAccumulator BoundedCapture CaptureStreamName DecodeSettings Payload
  TruncatedEvent render)
open Codec (ByteOrder)
open Spill (FileAccumulator FileBackedCapture SpillReplies)

inductive CapturePolicy
  | full
  | bounded (policy : BoundedCapture)
  | file (policy : FileBackedCapture)

structure FullAccumulator where
  stream : CaptureStreamName
  settings : DecodeSettings
  buffer : List UInt8 := []

/-- A bounded accumulator, with the truncations it has reported. -/
structure BoundedRun where
  accumulator : BoundedAccumulator
  events : List TruncatedEvent := []

abbrev CapturePolicy.Accumulator : CapturePolicy → Type
  | .full => FullAccumulator
  | .bounded _ => BoundedRun
  | .file _ => FileAccumulator

abbrev CapturePolicy.Final : CapturePolicy → Type
  | .full | .bounded _ => Capture.CaptureFinal
  | .file _ => Spill.CaptureFinal

/-- What a worker answers while a chunk is absorbed: to the write of an append, or to the
calls of a spill. -/
structure AbsorbReplies where
  write : Spill.Reply := {}
  spill : SpillReplies := {}

structure FinalizeReplies where
  flush : Spill.Reply := {}
  read : Spill.Reply := {}

def AbsorbReplies.uninterrupted (replies : AbsorbReplies) : AbsorbReplies where
  write := replies.write.uninterrupted
  spill := replies.spill.map .uninterrupted

def AbsorbReplies.heeded (replies : AbsorbReplies) : AbsorbReplies where
  write := replies.write.heeded
  spill := replies.spill.map .heeded

def raisedAs : Spill.Raised → Raised
  | .cancelled => .cancelled
  | .undecodable => .unicodeDecode
  | .os _ => .other 0
  | .closedFile => .other 1

def FullAccumulator.absorb (chunk : List UInt8) : Program FullAccumulator Raised Unit :=
  modify fun self => { self with buffer := self.buffer ++ chunk }

def FullAccumulator.finalize (byteOrder : ByteOrder) :
    Program FullAccumulator Raised Capture.CaptureFinal := do
  let self ← get
  match render byteOrder self.buffer self.settings with
  | none => throw .unicodeDecode
  | some payload => pure ⟨some payload, ⟨self.stream, .full, self.buffer.length, 0⟩⟩

def BoundedRun.absorb (chunk : List UInt8) : Program BoundedRun Raised Unit :=
  modify fun self => { self with accumulator := self.accumulator.absorb chunk }

/-- A truncation is reported before the tail is rendered. -/
def BoundedRun.finalize (byteOrder : ByteOrder) :
    Program BoundedRun Raised Capture.CaptureFinal := do
  let (final, event, accumulator) := (← get).accumulator.finalize byteOrder
  modify fun self => { accumulator, events := self.events ++ event.toList }
  match final.payload with
  | none => throw .unicodeDecode
  | some _ => pure final

/-- `build_accumulator`, before it has absorbed anything. -/
def CapturePolicy.accumulator (stream : CaptureStreamName) (settings : DecodeSettings) :
    (policy : CapturePolicy) → policy.Accumulator
  | .full => { stream, settings }
  | .bounded policy => ⟨.initial policy stream settings, []⟩
  | .file _ => {}

def CapturePolicy.sink (stream : CaptureStreamName) (settings : DecodeSettings)
    (byteOrder : ByteOrder) : (policy : CapturePolicy) →
      CaptureSink policy.Accumulator AbsorbReplies FinalizeReplies policy.Final
  | .full =>
      { absorb := fun chunk _ => FullAccumulator.absorb chunk
        finalize := fun _ => FullAccumulator.finalize byteOrder }
  | .bounded _ =>
      { absorb := fun chunk _ => BoundedRun.absorb chunk
        finalize := fun _ => BoundedRun.finalize byteOrder }
  | .file policy =>
      { absorb := fun chunk replies =>
          EStateM.adaptExcept raisedAs
            (Spill.absorb policy stream chunk replies.write replies.spill)
        finalize := fun replies =>
          EStateM.adaptExcept raisedAs
            (Spill.finalize stream settings byteOrder replies.flush replies.read) }

/-! What an interrupted absorb leaves to a finalization. -/

/-- How a sink stands to its interruptions.  What it holds are the bytes handed to it, and a
finalization tells how many they are; an absorb returns, or is cancelled where the
uninterrupted one returns, and then it recovers when the finalization answers as it would
have without the interruption. -/
structure Interruptible (sink : CaptureSink κ ρ φ π) (heeded uninterrupted : ρ → ρ)
    (size : π → Nat) (Holds : List UInt8 → κ → Prop)
    (Recovers : List UInt8 → κ → ρ → φ → Prop) (Answers : List UInt8 → π → π → Prop) :
    Prop where
  absorb : ∀ {handed capture} (chunk : List UInt8) (replies : ρ), Holds handed capture →
    ∃ whole, sink.absorb chunk (uninterrupted replies) capture = .ok () whole ∧
      Holds (handed ++ chunk) whole ∧
      (sink.absorb chunk replies capture = .ok () whole ∨
        ∃ after, sink.absorb chunk replies capture = .error .cancelled after ∧
          ∀ finalizing final, outcome (sink.finalize finalizing) whole = .ok final →
            (Recovers (handed ++ chunk) capture replies finalizing ↔
              ∃ answer, outcome (sink.finalize finalizing) after = .ok answer ∧
                Answers (handed ++ chunk) answer final))
  same : ∀ handed final, Answers handed final final
  /-- A cancellation that cuts an absorb short was delivered to it. -/
  heard : ∀ {chunk replies capture after},
    sink.absorb chunk replies capture = .error .cancelled after →
      ∃ other, sink.absorb chunk (heeded replies) capture = .error .cancelled other
  tells : ∀ {handed capture finalizing final}, Holds handed capture →
    outcome (sink.finalize finalizing) capture = .ok final → size final = handed.length
  cut : ∀ {handed capture chunk replies after finalizing answer}, Holds handed capture →
    sink.absorb chunk replies capture = .error .cancelled after →
      outcome (sink.finalize finalizing) after = .ok answer →
        size answer = (handed ++ chunk).length
  alike : ∀ {handed answer final}, Answers handed answer final →
    size final = handed.length → size answer = handed.length

/-- All of the bytes, from memory. -/
structure FromMemory (settings : DecodeSettings) (byteOrder : ByteOrder)
    (handed : List UInt8) (final : Spill.CaptureFinal) : Prop where
  storage : final.capture.storage = .memory
  payload : ∃ payload, render byteOrder handed settings = some payload ∧
    final.payload = some payload
  total : final.capture.totalBytes = handed.length

/-- The answer of a capture that was interrupted, beside that of one that was not. -/
def CapturePolicy.Answers (settings : DecodeSettings) (byteOrder : ByteOrder)
    (handed : List UInt8) : (policy : CapturePolicy) → policy.Final → policy.Final → Prop
  | .full, answer, final | .bounded _, answer, final => answer = final
  | .file _, answer, final => answer = final ∨ FromMemory settings byteOrder handed answer

def CapturePolicy.Holds (handed : List UInt8) :
    (policy : CapturePolicy) → policy.Accumulator → Prop
  | .full, capture => capture.buffer = handed
  | .bounded _, capture => capture.accumulator.Absorbed handed
  | .file policy, capture => Spill.Sound policy False handed false false capture

def CapturePolicy.size : (policy : CapturePolicy) → policy.Final → Nat
  | .full, final | .bounded _, final => final.capture.totalBytes
  | .file _, final => final.capture.totalBytes

/-- A capture still in memory can be decoded; one in a file was not failed unheard, or
another failure is heard. -/
def FileRecovers (settings : DecodeSettings) (byteOrder : ByteOrder) (handed : List UInt8)
    (capture : FileAccumulator) (replies : AbsorbReplies) (finalizing : FinalizeReplies) : Prop :=
  if capture.path = none then (render byteOrder handed settings).isSome = true
  else replies.write.failure = none ∨ finalizing.flush.failure ≠ none ∨
    (settings.captureBytes = true ∧ finalizing.read.failure ≠ none)

def CapturePolicy.Recovers (settings : DecodeSettings) (byteOrder : ByteOrder)
    (handed : List UInt8) : (policy : CapturePolicy) → policy.Accumulator → AbsorbReplies →
      FinalizeReplies → Prop
  | .full, _, _, _ | .bounded _, _, _, _ => True
  | .file _, capture, replies, finalizing =>
      FileRecovers settings byteOrder handed capture replies finalizing

theorem outcome_adapted {σ α : Type} (program : Program σ Spill.Raised α) (state : σ) :
    outcome (EStateM.adaptExcept raisedAs program) state =
      (outcome program state).mapError raisedAs := by
  unfold outcome EStateM.adaptExcept
  cases program state <;> rfl

section

variable {policy : FileBackedCapture} {stream : CaptureStreamName} {settings : DecodeSettings}
  {byteOrder : ByteOrder} {handed : List UInt8} {chunk : List UInt8} {replies : AbsorbReplies}
  {finalizing : FinalizeReplies} {capture after whole : FileAccumulator}
  {final : Spill.CaptureFinal}

theorem recovers_in_memory (path : capture.path = none) (still : after.path = none)
    (buffer : after.buffer = some handed) (total : after.total = handed.length) :
    FileRecovers settings byteOrder handed capture replies finalizing ↔
      ∃ answer, outcome (Spill.finalize stream settings byteOrder finalizing.flush
          finalizing.read) after = .ok answer ∧
        (answer = final ∨ FromMemory settings byteOrder handed answer) := by
  rw [Spill.outcome_buffered still buffer total]
  unfold FileRecovers Spill.bufferedAnswer
  rw [if_pos path]
  cases rendered : render byteOrder handed settings with
  | none => simp
  | some payload =>
      refine ⟨fun _ => ⟨_, rfl, .inr ⟨rfl, ⟨payload, rendered, rfl⟩, rfl⟩⟩, fun _ => rfl⟩

theorem recovers_in_file (path : capture.path ≠ none)
    (cut : Spill.CutAppend policy replies.write handed after whole)
    (finalized : outcome (Spill.finalize stream settings byteOrder finalizing.flush
      finalizing.read) whole = .ok final) :
    FileRecovers settings byteOrder handed capture replies finalizing ↔
      ∃ answer, outcome (Spill.finalize stream settings byteOrder finalizing.flush
          finalizing.read) after = .ok answer ∧
        (answer = final ∨ FromMemory settings byteOrder handed answer) := by
  obtain ⟨spill, spilled, counterpart, opened⟩ := cut.spill
  rw [Spill.outcome_spilled spilled opened, cut.total.1, cut.unharmed]
  rw [Spill.outcome_spilled counterpart opened, cut.total.2, cut.heard] at finalized
  unfold FileRecovers
  rw [if_neg path]
  unfold Spill.spilledAnswer at finalized ⊢
  split at finalized
  · contradiction
  · next uncancelled =>
      cases finalized
      rw [if_neg uncancelled]
      constructor
      · intro heard
        refine ⟨_, rfl, .inl ?_⟩
        rcases heard with unharmed | flushed | ⟨bytes, read⟩
        · rw [unharmed]
        · obtain ⟨name, flushed⟩ := Option.ne_none_iff_exists'.mp flushed
          simp [flushed]
        · obtain ⟨name, read⟩ := Option.ne_none_iff_exists'.mp read
          simp [bytes, read]
      · rintro ⟨answer, answered, same | memory⟩
        · cases answered
          have failed := congrArg (·.capture.storageFailed) same
          cases refused : replies.write.failure with
          | none => exact .inl rfl
          | some name =>
              right
              simpa [refused, Option.isSome_iff_ne_none] using failed.symm
        · cases answered
          exact absurd memory.storage nofun

end

theorem adapted_ok_iff {σ α : Type} {program : Program σ Spill.Raised α} {state after : σ}
    {value : α} : EStateM.adaptExcept raisedAs program state = .ok value after ↔
      program state = .ok value after := by
  unfold EStateM.adaptExcept
  cases program state <;> simp

theorem adapted_cut_iff {σ α : Type} {program : Program σ Spill.Raised α} {state after : σ} :
    EStateM.adaptExcept raisedAs program state = .error .cancelled after ↔
      program state = .error .cancelled after := by
  unfold EStateM.adaptExcept
  cases program state with
  | ok value after => simp
  | error error after => cases error <;> simp [raisedAs]

theorem mapError_ok_iff {α : Type} {result : Except Spill.Raised α} {value : α} :
    result.mapError raisedAs = .ok value ↔ result = .ok value := by
  cases result <;> simp [Except.mapError]

theorem adapted_outcome_iff {σ α : Type} {program : Program σ Spill.Raised α} {state : σ}
    {value : α} : outcome (EStateM.adaptExcept raisedAs program) state = .ok value ↔
      outcome program state = .ok value := by
  rw [outcome_adapted, mapError_ok_iff]

theorem FullAccumulator.finalize_total {byteOrder : ByteOrder} {capture : FullAccumulator}
    {final : Capture.CaptureFinal}
    (returned : outcome (FullAccumulator.finalize byteOrder) capture = .ok final) :
    final.capture.totalBytes = capture.buffer.length := by
  have ends : Ends (FullAccumulator.finalize byteOrder)
      (fun final _ => final.capture.totalBytes = capture.buffer.length) (fun _ _ => True)
      capture := by
    refine .bind (.reads ?_)
    cases render byteOrder capture.buffer capture.settings with
    | none => exact .raises trivial
    | some payload => exact .returns rfl
  exact (ends.of_outcome returned).choose_spec

theorem BoundedRun.finalize_total {byteOrder : ByteOrder} {capture : BoundedRun}
    {final : Capture.CaptureFinal}
    (returned : outcome (BoundedRun.finalize byteOrder) capture = .ok final) :
    final.capture.totalBytes = capture.accumulator.total := by
  have ends : Ends (BoundedRun.finalize byteOrder)
      (fun final _ => final.capture.totalBytes = capture.accumulator.total) (fun _ _ => True)
      capture := by
    refine .bind (.reads (.bind (.updates ?_)))
    split
    · exact .raises trivial
    · exact .returns rfl
  exact (ends.of_outcome returned).choose_spec

section

variable (stream : CaptureStreamName) (settings : DecodeSettings) (byteOrder : ByteOrder)

theorem full_interruptible :
    Interruptible (CapturePolicy.full.sink stream settings byteOrder)
      AbsorbReplies.heeded AbsorbReplies.uninterrupted CapturePolicy.full.size
      (fun handed => CapturePolicy.full.Holds handed)
      (fun handed => CapturePolicy.full.Recovers settings byteOrder handed)
      (fun handed => CapturePolicy.full.Answers settings byteOrder handed) where
  absorb := by
    intro handed capture chunk replies holds
    exact ⟨_, rfl, congrArg (· ++ chunk) holds, .inl rfl⟩
  same := fun _ _ => rfl
  heard := nofun
  tells := by
    intro handed capture finalizing final holds returned
    rw [← show capture.buffer = handed from holds]
    exact FullAccumulator.finalize_total returned
  cut := nofun
  alike := by
    rintro handed answer final rfl length
    exact length

theorem bounded_interruptible (policy : BoundedCapture) :
    Interruptible ((CapturePolicy.bounded policy).sink stream settings byteOrder)
      AbsorbReplies.heeded AbsorbReplies.uninterrupted (CapturePolicy.bounded policy).size
      (fun handed => (CapturePolicy.bounded policy).Holds handed)
      (fun handed => (CapturePolicy.bounded policy).Recovers settings byteOrder handed)
      (fun handed => (CapturePolicy.bounded policy).Answers settings byteOrder handed) where
  absorb := by
    intro handed capture chunk replies holds
    exact ⟨_, rfl, holds.absorb chunk, .inl rfl⟩
  same := fun _ _ => rfl
  heard := nofun
  tells := by
    intro handed capture finalizing final holds returned
    rw [← holds.total]
    exact BoundedRun.finalize_total returned
  cut := nofun
  alike := by
    rintro handed answer final rfl length
    exact length

theorem file_interruptible (policy : FileBackedCapture) :
    Interruptible ((CapturePolicy.file policy).sink stream settings byteOrder)
      AbsorbReplies.heeded AbsorbReplies.uninterrupted (CapturePolicy.file policy).size
      (fun handed => (CapturePolicy.file policy).Holds handed)
      (fun handed => (CapturePolicy.file policy).Recovers settings byteOrder handed)
      (fun handed => (CapturePolicy.file policy).Answers settings byteOrder handed) where
  absorb := by
    intro handed capture chunk replies sound
    obtain ⟨whole, returned, kept⟩ :=
      @Spill.absorb_uninterrupted _ stream _ _ sound chunk replies.write replies.spill
    refine ⟨whole, adapted_ok_iff.mpr returned, kept, ?_⟩
    have same := (Spill.interrupts_absorb policy stream chunk
      replies.write.exceeds_uninterrupted replies.spill.exceeds_uninterrupted).same capture
    rcases same with same | ⟨after, cut⟩
    · exact .inl (adapted_ok_iff.mpr (same.trans returned))
    · refine .inr ⟨after, adapted_cut_iff.mpr cut, fun finalizing final finalized => ?_⟩
      have finalized := adapted_outcome_iff.mp finalized
      change FileRecovers settings byteOrder (handed ++ chunk) capture replies finalizing ↔
        ∃ answer, outcome (EStateM.adaptExcept raisedAs _) after = .ok answer ∧ _
      simp only [adapted_outcome_iff]
      by_cases path : capture.path = none
      · obtain ⟨-, still, buffer, total⟩ := Spill.absorb_cut_in_memory sound path cut
        exact recovers_in_memory path still buffer total
      · have some : capture.path.isSome = true := Option.isSome_iff_ne_none.mpr path
        obtain ⟨-, -, other, ran, cutAppend⟩ := Spill.absorb_cut_in_file sound some cut
        cases returned.symm.trans ran
        exact recovers_in_file path cutAppend finalized
  same := fun _ _ => .inl rfl
  heard := by
    intro chunk replies capture after cut
    obtain ⟨other, struck⟩ := Spill.absorb_heeded (adapted_cut_iff.mp cut)
    exact ⟨other, adapted_cut_iff.mpr struck⟩
  tells := by
    intro handed capture finalizing final sound returned
    have ends := @Spill.finalize_ends _ stream settings byteOrder _ _ _ _ _ finalizing.flush
      finalizing.read sound
    exact (ends.of_outcome (adapted_outcome_iff.mp returned)).choose_spec.2.1.total
  cut := by
    intro handed capture chunk replies after finalizing answer sound cut returned
    have absorbed := @Spill.absorb_ends _ stream _ _ _ chunk replies.write replies.spill sound
      fun trusted => trusted.elim
    unfold Ends at absorbed
    rw [adapted_cut_iff.mp cut] at absorbed
    have ends := @Spill.finalize_ends _ stream settings byteOrder _ _ _ _ _ finalizing.flush
      finalizing.read absorbed.2
    exact (ends.of_outcome (adapted_outcome_iff.mp returned)).choose_spec.2.1.total
  alike := by
    rintro handed answer final (rfl | memory) length
    · exact length
    · exact memory.total

theorem interruptible (policy : CapturePolicy) :
    Interruptible (policy.sink stream settings byteOrder) AbsorbReplies.heeded
      AbsorbReplies.uninterrupted policy.size (fun handed => policy.Holds handed)
      (fun handed => policy.Recovers settings byteOrder handed)
      (fun handed => policy.Answers settings byteOrder handed) := by
  cases policy with
  | full => exact full_interruptible stream settings byteOrder
  | bounded policy => exact bounded_interruptible stream settings byteOrder policy
  | file policy => exact file_interruptible stream settings byteOrder policy

end

theorem holds_accumulator (policy : CapturePolicy) (stream : CaptureStreamName)
    (settings : DecodeSettings) : policy.Holds [] (policy.accumulator stream settings) := by
  cases policy with
  | full => rfl
  | bounded policy => exact BoundedAccumulator.absorbed_initial policy stream settings
  | file policy => exact (@Spill.Session.sound_initial policy settings .little False).capture

end Cuprum.Drain
