import Cuprum.Spill.Absorbing

namespace Cuprum.Spill

open Cuprum.Effect
open Cuprum.Capture (CaptureStreamName DecodeSettings render)
open Cuprum.Codec (ByteOrder)

variable {policy : FileBackedCapture} {stream : CaptureStreamName} {settings : DecodeSettings}
  {byteOrder : ByteOrder} {capture : FileAccumulator} {handed : List UInt8}
  {spill : SpillHandle} {trusted : Prop} {cancelled cleaned : Bool}

/-- A call that leaves the contents of the file as they are leaves the capture sound. -/
theorem Sound.onFile {update : SpillFile → SpillFile} {after : FileAccumulator}
    (sound : Sound policy trusted handed cancelled cleaned capture)
    (spilled : Spilled policy capture spill)
    (moved : Spilled policy after { spill with file := update spill.file })
    (total : after.total = capture.total) (failed : after.failed = none → capture.failed = none)
    (holds : (update spill.file).Holds handed)
    (contents : (update spill.file).contents = spill.file.contents)
    (closed : (update spill.file).closed = spill.file.closed)
    (removals : (update spill.file).removals = spill.file.removals) :
    Sound policy trusted handed cancelled cleaned after := by
  have some : capture.path.isSome = true := by
    rw [spilled.path]
    rfl
  have inside : spill ∈ capture.files := by
    rw [spilled.files]
    exact List.mem_singleton_self _
  have phase := sound.phase
  apply Sound.of_spilled moved (total.trans sound.total) holds
  · cases phase with
    | memory memory => exact nomatch spilled.path.symm.trans memory.path
    | provisional spill provisional => exact nomatch spilled.path.symm.trans provisional.path
    | spilled other same opened released =>
        cases List.singleton_inj.mp (spilled.files.symm.trans same.files)
        rw [closed]
        exact opened
  · cases phase with
    | memory memory => exact nomatch spilled.path.symm.trans memory.path
    | provisional spill provisional => exact nomatch spilled.path.symm.trans provisional.path
    | spilled other same opened released =>
        cases List.singleton_inj.mp (spilled.files.symm.trans same.files)
        rw [closed, removals]
        exact released
  · intro either unharmed running
    rw [contents]
    exact sound.honest either some (failed unharmed) running spill inside

/-- Past the flush the file is as it was, and all of it has landed if no failure is known. -/
structure Flushed (policy : FileBackedCapture) (trusted : Prop) (handed : List UInt8)
    (cancelled cleaned : Bool) (capture : FileAccumulator) : Prop where
  sound : Sound policy trusted handed cancelled cleaned capture
  landed : ∃ spill, Spilled policy capture spill ∧
    (capture.failed = none → cleaned = false ∧ spill.file.disk = spill.file.contents)

theorem Sound.opened (sound : Sound policy trusted handed cancelled cleaned capture)
    (spilled : Spilled policy capture spill) (closed : spill.file.closed = false) :
    cleaned = false := by
  cases sound.phase with
  | memory memory => exact nomatch spilled.path.symm.trans memory.path
  | provisional spill provisional => exact nomatch spilled.path.symm.trans provisional.path
  | spilled other same opened released =>
      cases List.singleton_inj.mp (spilled.files.symm.trans same.files)
      exact Bool.eq_false_iff.mpr fun done => nomatch closed.symm.trans (released done).1

theorem flushBeforeReading_ends {reply : Reply}
    (sound : Sound policy trusted handed cancelled cleaned capture)
    (spilled : Spilled policy capture spill) :
    Ends (flushBeforeReading stream reply)
      (fun _ => Flushed policy trusted handed cancelled cleaned)
      (fun error after => (∀ name, error ≠ .os name) ∧
        Sound policy trusted handed (cancelled || error == .cancelled) cleaned after)
      capture := by
  have still : ∀ error, Sound policy trusted handed (cancelled || error == Raised.cancelled)
      cleaned capture := by
    intro error
    cases error == Raised.cancelled with
    | false => rwa [Bool.or_false]
    | true =>
        rw [Bool.or_true]
        exact sound.cancel
  unfold flushBeforeReading
  apply Ends.bind
  apply Ends.reads
  simp only [spilled.file]
  apply Ends.bind
  apply exceptOsError_ends
  apply Ends.bind
  cases closed : spill.file.closed with
  | true =>
      apply closed_ends spilled.found closed
      · exact ⟨nofun, fun _ => ⟨nofun, still .closedFile⟩⟩
      · exact ⟨nofun, fun _ => ⟨nofun, still .cancelled⟩⟩
  | false =>
      have running := sound.opened spilled closed
      have inside : spill ∈ capture.files := by
        rw [spilled.files]
        exact List.mem_singleton_self _
      have moved := @Spilled.onFile _ _ _ (·.flush reply.toAnswer) spilled
        (fun shut => shut) spilled.kept
      have holds := (sound.holds spill inside).flush reply.toAnswer
      have flushed : ∀ after, Spilled policy after
          { spill with file := spill.file.flush reply.toAnswer } →
          after.total = capture.total → (after.failed = none → capture.failed = none) →
          Sound policy trusted handed cancelled cleaned after := by
        intro after same total failed
        exact @Sound.onFile _ _ _ _ _ _ _ (·.flush reply.toAnswer) _ sound spilled same total
          failed holds (SpillFile.flush_contents _ _) rfl rfl
      apply open_ends spilled.found closed
      apply blocking_ends
      · intro _ unharmed
        apply Ends.returns
        have last : Spilled policy
            { capture.onFile 0 (·.flush reply.toAnswer) with
              flushedBytes := capture.spilledBytes }
            { spill with file := spill.file.flush reply.toAnswer } := { moved with }
        refine ⟨flushed _ last rfl (fun none => none), _, last, fun _ => ⟨running, ?_⟩⟩
        rw [SpillFile.flush_contents]
        exact SpillFile.flush_disk unharmed
      · intro name _ _
        refine ⟨?_, fun other => absurd rfl (other name)⟩
        intro same _
        refine Ends.bind (Ends.updates (Ends.bind (Ends.reads ?_)))
        apply Ends.branch
        · intro _
          apply Ends.bind
          apply failStorage_ends
          intro events
          refine Ends.returns (Ends.returns ?_)
          exact ⟨flushed _ { moved with } rfl nofun, _, { moved with }, nofun⟩
        · intro known
          refine Ends.returns (Ends.returns ?_)
          refine ⟨flushed _ { moved with } rfl (fun none => none), _, { moved with }, ?_⟩
          intro unharmed
          exact absurd (Option.isNone_iff_eq_none.mpr unharmed) known
      · intro _
        refine ⟨nofun, fun _ => ⟨nofun, ?_⟩⟩
        have interrupted := (flushed _ moved rfl fun none => none).cancel
        simpa using interrupted

theorem pathReadBytes_ends {number : Nat} {reply : Reply}
    {returned : List UInt8 → FileAccumulator → Prop} {raised : Raised → FileAccumulator → Prop}
    (returns : reply.cancelled = false → reply.failure = none →
      returned (capture.files[number]?.elim [] (·.file.disk)) capture)
    (fails : ∀ name, reply.cancelled = false → reply.failure = some name →
      raised (.os name) capture)
    (cancels : reply.cancelled = true → raised .cancelled capture) :
    Ends (pathReadBytes number reply) returned raised capture := by
  refine run_ends (.bind (.attempt (fun none => ?_) fun error some => ?_))
  · have accepted := Option.map_eq_none_iff.mp none
    exact .bind (.reads (.returns ⟨accepted, fun heard => returns heard accepted, cancels⟩))
  · obtain ⟨name, refused, rfl⟩ := Option.map_eq_some_iff.mp some
    exact ⟨name, rfl, refused, fun heard => fails name heard refused, cancels⟩

/-- What a record says of the capture it was made of. -/
structure Reported (settings : DecodeSettings) (byteOrder : ByteOrder) (handed : List UInt8)
    (capture : FileAccumulator) (final : CaptureFinal) : Prop where
  total : final.capture.totalBytes = handed.length
  memory : capture.path = none →
    final.capture.storage = .memory ∧ final.payload = render byteOrder handed settings
  file : ∀ number, capture.path = some number →
    final.capture.storage = .file ∧ final.capture.path = some number

/-- All of the stream is there to be read: in memory, or in the file, which in byte mode was
read back. -/
def Complete (settings : DecodeSettings) (byteOrder : ByteOrder) (handed : List UInt8)
    (capture : FileAccumulator) (final : CaptureFinal) : Prop :=
  (capture.path = none ∧ final.payload = render byteOrder handed settings) ∨
    ∃ number spill, capture.path = some number ∧ capture.files[number]? = some spill ∧
      spill.file.disk = handed ∧
        (settings.captureBytes = true → final.payload = some (.bytes handed))

theorem finalizeBuffered_ends {returned : CaptureFinal → FileAccumulator → Prop}
    {raised : Raised → FileAccumulator → Prop} (path : capture.path = none)
    (buffer : capture.buffer = some handed) (total : capture.total = handed.length)
    (returns : ∀ final, Reported settings byteOrder handed capture final →
      Complete settings byteOrder handed capture final → returned final capture)
    (raises : raised .undecodable capture) :
    Ends (finalizeBuffered stream settings byteOrder) returned raised capture := by
  unfold finalizeBuffered
  apply Ends.bind
  apply Ends.reads
  simp only [buffer, Option.getD_some]
  cases rendered : render byteOrder handed settings with
  | none => exact Ends.raises raises
  | some payload =>
      apply Ends.returns
      apply returns
      · exact {
          total := total
          memory := fun _ => ⟨rfl, rendered.symm⟩
          file := fun number some => nomatch path.symm.trans some }
      · exact .inl ⟨path, rendered.symm⟩

theorem finalizeSpilled_ends {flush read : Reply}
    (sound : Sound policy trusted handed cancelled cleaned capture)
    (spilled : Spilled policy capture spill) :
    Ends (finalizeSpilled stream settings 0 flush read)
      (fun final after => Sound policy trusted handed cancelled cleaned after ∧
        Reported settings byteOrder handed after final ∧
          (cancelled = false ∨ trusted → final.capture.storageFailed = false →
            Complete settings byteOrder handed after final))
      (fun error after => (∀ name, error ≠ .os name) ∧
        Sound policy trusted handed (cancelled || error == .cancelled) cleaned after)
      capture := by
  unfold finalizeSpilled
  apply Ends.bind
  apply (flushBeforeReading_ends sound spilled).mono ?_ fun _ _ ended => ended
  intro _ flushed ended
  obtain ⟨kept, spill, here, landed⟩ := ended
  have reported : ∀ (after : FileAccumulator) (final : CaptureFinal), after.path = some 0 →
      final.capture.totalBytes = flushed.total → final.capture.storage = .file →
      final.capture.path = some 0 → Reported settings byteOrder handed after final := by
    intro after final path total storage same
    exact {
      total := total.trans kept.total
      memory := fun none => nomatch path.symm.trans none
      file := fun number some => ⟨storage, same.trans (path.symm.trans some)⟩ }
  have disk : cancelled = false ∨ trusted → flushed.failed = none → spill.file.disk = handed := by
    intro either unharmed
    have inside : spill ∈ flushed.files := by
      rw [here.files]
      exact List.mem_singleton_self _
    have some : flushed.path.isSome = true := by
      rw [here.path]
      rfl
    rw [(landed unharmed).2]
    exact kept.honest either some unharmed (landed unharmed).1 spill inside
  cases bytes : settings.captureBytes with
  | false =>
      refine Ends.bind (Ends.returns (Ends.bind (Ends.reads (Ends.returns ?_))))
      refine ⟨kept, reported flushed _ here.path rfl rfl rfl, ?_⟩
      intro either unharmed
      refine .inr ⟨0, spill, here.path, here.found, ?_, fun byte => nomatch bytes.symm.trans byte⟩
      exact disk either (Option.isSome_eq_false_iff.mp unharmed |> Option.isNone_iff_eq_none.mp)
  | true =>
      apply Ends.bind
      apply exceptOsError_ends
      apply Ends.map
      apply pathReadBytes_ends
      · intro _ _
        refine Ends.bind (Ends.reads (Ends.returns ?_))
        refine ⟨kept, reported flushed _ here.path rfl rfl rfl, ?_⟩
        intro either unharmed
        have whole := disk either
          (Option.isSome_eq_false_iff.mp unharmed |> Option.isNone_iff_eq_none.mp)
        refine .inr ⟨0, spill, here.path, here.found, whole, fun _ => ?_⟩
        rw [here.found]
        exact congrArg (fun bytes => some (Capture.Payload.bytes bytes)) whole
      · intro name _ _
        refine ⟨?_, fun other => absurd rfl (other name)⟩
        intro same _
        apply Ends.bind
        apply failStorage_ends
        intro events
        refine Ends.returns (Ends.bind (Ends.reads (Ends.returns ?_)))
        refine ⟨?_, reported _ _ here.path rfl rfl rfl, fun _ unharmed => nomatch unharmed⟩
        exact {
          total := kept.total
          holds := kept.holds
          phase := by
            cases kept.phase with
            | memory memory => exact nomatch here.path.symm.trans memory.path
            | provisional spill provisional =>
                exact nomatch here.path.symm.trans provisional.path
            | spilled spill spilled opened released =>
                exact .spilled spill { spilled with } opened released
          honest := fun _ _ unharmed => nomatch unharmed }
      · intro _
        refine ⟨nofun, fun _ => ⟨nofun, ?_⟩⟩
        have interrupted := kept.cancel
        simpa using interrupted

theorem finalize_ends {flush read : Reply}
    (sound : Sound policy trusted handed cancelled cleaned capture) :
    Ends (finalize stream settings byteOrder flush read)
      (fun final after => Sound policy trusted handed cancelled cleaned after ∧
        Reported settings byteOrder handed after final ∧
          (cancelled = false ∨ trusted → final.capture.storageFailed = false →
            Complete settings byteOrder handed after final))
      (fun error after => (∀ name, error ≠ .os name) ∧
        Sound policy trusted handed (cancelled || error == .cancelled) cleaned after)
      capture := by
  unfold finalize
  apply Ends.bind
  apply Ends.reads
  have buffered : capture.path = none → capture.buffer = some handed →
      Ends (finalizeBuffered stream settings byteOrder)
        (fun final after => Sound policy trusted handed cancelled cleaned after ∧
          Reported settings byteOrder handed after final ∧
            (cancelled = false ∨ trusted → final.capture.storageFailed = false →
              Complete settings byteOrder handed after final))
        (fun error after => (∀ name, error ≠ .os name) ∧
          Sound policy trusted handed (cancelled || error == .cancelled) cleaned after)
        capture := by
    intro path buffer
    apply finalizeBuffered_ends path buffer sound.total
    · exact fun final reported complete => ⟨sound, reported, fun _ _ => complete⟩
    · have other : (Raised.undecodable == Raised.cancelled) = false := rfl
      rw [other, Bool.or_false]
      exact ⟨nofun, sound⟩
  cases sound.phase with
  | memory memory =>
      simp only [memory.path]
      exact buffered memory.path memory.buffer
  | provisional spill provisional =>
      simp only [provisional.path]
      exact buffered provisional.path provisional.buffer
  | spilled spill spilled =>
      simp only [spilled.path]
      exact finalizeSpilled_ends sound spilled

def SpillHandle.shut (handle : SpillHandle) (close : Answer) : SpillHandle :=
  if handle.closed then handle
  else { handle with closed := true, file := handle.file.close close }

/-- What closing a handle leaves of it. -/
def SpillHandle.released (handle : SpillHandle) (remove : Bool) (close : Answer) : SpillHandle :=
  if remove && !handle.keep then
    { handle.shut close with file := (handle.shut close).file.unlink }
  else handle.shut close

theorem closeHandle_ends {remove : Bool} {close unlink : Answer}
    {raised : Raised → FileAccumulator → Prop} (files : capture.files = [spill]) :
    Ends (closeHandle 0 remove close unlink)
      (fun _ after => after = { capture with files := [spill.released remove close] })
      raised capture := by
  have found : capture.files[0]? = some spill := by
    rw [files]
    rfl
  have removes : ∀ after shut, after = { capture with files := [shut] } →
      Ends (if remove && !spill.keep then
          exceptOsError (pathUnlink 0 unlink) fun _ => pure ()
        else pure ())
        (fun _ last => last = { capture with files := [if remove && !spill.keep then
          { shut with file := shut.file.unlink } else shut] }) raised after := by
    intro after shut same
    rw [same]
    apply Ends.branch
    · intro removes
      refine suppressed_ends ?_
      rw [if_pos removes]
      rfl
    · intro keeps
      apply Ends.returns
      rw [if_neg keeps]
  unfold closeHandle SpillHandle.released SpillHandle.shut
  apply Ends.bind
  apply Ends.reads
  simp only [found]
  cases claimed : spill.closed with
  | true =>
      simp only [if_true]
      apply removes
      rw [← files]
  | false =>
      simp only [Bool.false_eq_true, if_false]
      refine Ends.bind (Ends.updates (Ends.bind ?_))
      refine suppressed_ends ?_
      apply removes
      simp [FileAccumulator.onFile, FileAccumulator.onHandle, files]

namespace SpillHandle

variable {handle : SpillHandle} {remove : Bool} {close : Answer}

theorem shut_keep : (handle.shut close).keep = handle.keep := by
  unfold shut
  split <;> rfl

theorem shut_closed (closed : handle.closed = true → handle.file.closed = true) :
    (handle.shut close).file.closed = true := by
  unfold shut
  split
  next claimed => exact closed claimed
  next => exact SpillFile.close_closed _ _

theorem shut_holds (holds : handle.file.Holds handed) :
    (handle.shut close).file.Holds handed := by
  unfold shut
  split
  next => exact holds
  next => exact holds.close close

theorem shut_removals : (handle.shut close).file.removals = handle.file.removals := by
  unfold shut
  split
  next => rfl
  next => exact SpillFile.close_removals _ _

theorem released_keep : (handle.released remove close).keep = handle.keep := by
  unfold released
  split <;> exact shut_keep

theorem released_closed (closed : handle.closed = true → handle.file.closed = true) :
    (handle.released remove close).file.closed = true := by
  unfold released
  split <;> exact shut_closed closed

theorem released_holds (holds : handle.file.Holds handed) :
    (handle.released remove close).file.Holds handed := by
  unfold released
  split
  next => exact (shut_holds holds).unlink
  next => exact shut_holds holds

theorem released_removals : (handle.released remove close).file.removals =
    handle.file.removals + (remove && !handle.keep).toNat := by
  unfold released
  cases remove && !handle.keep with
  | true => exact congrArg (· + 1) shut_removals
  | false => exact shut_removals

end SpillHandle

/-- Cleaning up closes the file and attempts its removal, unless it is the caller's. -/
theorem cleanup_ends {close unlink : Answer}
    (sound : Sound policy trusted handed cancelled cleaned capture) :
    Ends (cleanup close unlink) (fun _ => Sound policy trusted handed cancelled true)
      (fun _ _ => False) capture := by
  unfold cleanup
  apply Ends.bind
  apply Ends.reads
  cases sound.phase with
  | memory memory =>
      simp only [memory.handle]
      apply Ends.returns
      exact Sound.of_memory memory sound.total sound.holds
  | provisional spill provisional interrupted =>
      simp only [provisional.handle, provisional.found, Option.elim_some]
      apply (closeHandle_ends provisional.files).mono ?_ fun _ _ wrong => wrong
      intro _ after same
      have inside : spill ∈ capture.files := by
        rw [provisional.files]
        exact List.mem_singleton_self _
      have closed := @SpillHandle.released_closed spill (!spill.keep) close
        provisional.closed
      have removals : 0 < (spill.released (!spill.keep) close).file.removals := by
        rw [SpillHandle.released_removals, provisional.keep]
        exact Nat.succ_pos _
      rw [same]
      exact {
        total := sound.total
        holds := by
          intro other member
          rw [List.mem_singleton.mp member]
          exact SpillHandle.released_holds (sound.holds spill inside)
        phase := .provisional _ {
          provisional with
          files := rfl
          keep := SpillHandle.released_keep.trans provisional.keep
          closed := fun _ => closed } interrupted fun _ => ⟨closed, removals⟩
        honest := fun _ _ _ => nofun }
  | spilled spill spilled opened released =>
      simp only [spilled.handle, spilled.found, Option.elim_some]
      apply (closeHandle_ends spilled.files).mono ?_ fun _ _ wrong => wrong
      intro _ after same
      have inside : spill ∈ capture.files := by
        rw [spilled.files]
        exact List.mem_singleton_self _
      have closed := @SpillHandle.released_closed spill (!spill.keep) close spilled.closed
      have removals := @SpillHandle.released_removals spill (!spill.keep) close
      rw [spilled.keep] at closed removals
      rw [same, spilled.keep]
      apply @Sound.of_spilled _ _ _ (spill.released (!policy.keepFile) close)
      · exact {
          spilled with
          files := rfl
          keep := SpillHandle.released_keep.trans spilled.keep
          closed := fun _ => closed
          kept := by
            intro keep
            rw [removals, keep, spilled.kept keep]
            rfl }
      · exact sound.total
      · exact SpillHandle.released_holds (sound.holds spill inside)
      · exact fun _ => rfl
      · refine fun _ => ⟨closed, fun remove => ?_⟩
        rw [removals, remove]
        exact Nat.succ_pos _
      · exact fun _ _ => nofun

end Cuprum.Spill
