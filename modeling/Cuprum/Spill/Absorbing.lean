import Cuprum.Spill.Phases

namespace Cuprum.Spill

open Cuprum.Effect
open Cuprum.Capture (CaptureStreamName)

variable {policy : FileBackedCapture} {stream : CaptureStreamName} {capture : FileAccumulator}
  {handed : List UInt8} {spill : SpillHandle} {trusted : Prop}

theorem failStorage_ends {name : String} {category : CaptureEventCategory}
    {returned : Unit → FileAccumulator → Prop} {raised : Raised → FileAccumulator → Prop}
    (returns : ∀ events, returned () { capture with failed := some name, events := events }) :
    Ends (failStorage stream name category) returned raised capture :=
  returns _

/-- A file has been made, and has not taken the prefix yet. -/
structure Half (handed : List UInt8) (spill : SpillHandle) (capture : FileAccumulator) :
    Prop extends Provisional capture handed spill where
  total : capture.total = handed.length
  holds : spill.file.Holds handed

namespace Half

theorem onFile {update : SpillFile → SpillFile} (half : Half handed spill capture)
    (closed : spill.file.closed = true → (update spill.file).closed = true)
    (holds : (update spill.file).Holds handed) :
    Half handed { spill with file := update spill.file } (capture.onFile 0 update) :=
  { half.toProvisional.onFile closed with
    total := half.total
    holds := holds }

theorem interrupted (half : Half handed spill capture) :
    Sound policy trusted handed true false capture :=
  .of_provisional half.toProvisional half.total half.holds

end Half

/-- The half-made file is given up, unless that is interrupted. -/
theorem discardFailedSpill_ends {name : String} {replies : SpillReplies}
    (half : Half handed spill capture) :
    Ends (discardFailedSpill stream 0 name replies)
      (fun _ => Sound policy trusted handed false false)
      (fun error after => error = .cancelled ∧ Sound policy trusted handed true false after)
      capture := by
  have shut := @Half.onFile _ _ _ (·.close replies.discardClose.toAnswer) half
    (fun _ => SpillFile.close_closed _ _) (half.holds.close _)
  apply Ends.bind
  apply tolerated_ends ?_ fun _ => ⟨rfl, shut.interrupted⟩
  have gone := @Half.onFile _ _ _ SpillFile.unlink shut (fun closed => closed)
    shut.holds.unlink
  apply Ends.bind
  apply tolerated_ends ?_ fun _ => ⟨rfl, gone.interrupted⟩
  apply Ends.bind
  apply Ends.updates
  simp only [gone.handle, gone.provisional, if_true]
  apply Ends.bind
  apply Ends.updates
  apply failStorage_ends
  intro events
  have given : ∀ other ∈ ((capture.onFile 0 (·.close replies.discardClose.toAnswer)).onFile 0
      SpillFile.unlink).files, other.file.closed = true ∧ 0 < other.file.removals := by
    rw [gone.files]
    intro other member
    rw [List.mem_singleton.mp member]
    exact ⟨SpillFile.close_closed _ _, Nat.succ_pos _⟩
  apply Sound.of_memory
  · exact {
      path := gone.path
      file := gone.file
      handle := rfl
      provisional := rfl
      buffer := gone.buffer
      untried := nofun
      given := given }
  · exact gone.total
  · change ∀ other ∈ ((capture.onFile 0 (·.close replies.discardClose.toAnswer)).onFile 0
      SpillFile.unlink).files, _
    rw [gone.files]
    intro other member
    rw [List.mem_singleton.mp member]
    exact gone.holds

/-- The first file of a capture is adopted before a cancellation is raised. -/
theorem createPublishedSpill_ends {reply : Reply} (memory : Memory capture handed)
    (total : capture.total = handed.length) (none : capture.files = []) :
    Ends (createPublishedSpill reply)
      (fun number after => number = 0 ∧ Half handed {} after)
      (fun error after =>
        (error = .cancelled ∧ Sound policy trusted handed true false after) ∨
          (∃ name, error = .os name) ∧ after = capture)
      capture := by
  unfold createPublishedSpill
  cases reply.failure with
  | some name =>
      refine .branch (fun _ => .raises (.inl ⟨rfl, .of_memory memory total ?_⟩))
        fun _ => .raises (.inr ⟨⟨name, rfl⟩, rfl⟩)
      rw [none]
      exact fun _ member => nomatch member
  | none =>
      have half : Half handed {} { capture with
          files := capture.files ++ [{}]
          handle := some capture.files.length
          provisional := some capture.files.length } := {
        path := memory.path
        file := memory.file
        handle := by rw [none]; rfl
        provisional := by rw [none]; rfl
        buffer := memory.buffer
        files := by rw [none]; rfl
        keep := rfl
        closed := nofun
        total := total
        holds := .empty handed }
      refine Ends.bind (Ends.reads (Ends.bind (Ends.updates (Ends.bind (Ends.updates ?_)))))
      apply Ends.branch
      · exact fun _ => Ends.raises (.inl ⟨rfl, half.interrupted⟩)
      · intro _
        refine Ends.returns ⟨?_, half⟩
        rw [none]
        rfl

theorem adoptPrefix_ends {raised : Raised → FileAccumulator → Prop}
    (half : Half handed spill capture) (whole : spill.file.contents = handed)
    (opened : spill.file.closed = false) (kept : spill.file.removals = 0) :
    Ends (adoptPrefix policy stream 0 handed)
      (fun _ => Sound policy trusted handed false false) raised capture := by
  refine Ends.bind (Ends.updates (Ends.bind ?_))
  refine Ends.bind (Ends.reads ?_)
  simp only [half.provisional]
  refine Ends.bind (Ends.updates (Ends.updates (Ends.bind (Ends.updates (Ends.updates ?_)))))
  apply @Sound.of_spilled _ _ _ { spill with keep := policy.keepFile }
  · exact {
      path := rfl
      file := rfl
      handle := half.handle
      files := by simp [FileAccumulator.onHandle, half.files]
      keep := rfl
      closed := half.closed
      kept := fun _ => kept }
  · exact half.total
  · exact half.holds
  · intro closed
    exact absurd (opened.symm.trans closed) Bool.false_ne_true
  · exact fun cancelled => absurd cancelled Bool.false_ne_true
  · exact fun _ _ _ => whole

/-- The move to a file is made as a whole, given up, or interrupted. -/
theorem spill_ends {replies : SpillReplies} (memory : Memory capture handed)
    (total : capture.total = handed.length) (none : capture.files = []) :
    Ends (Spill.spill policy stream replies)
      (fun _ => Sound policy trusted handed false false)
      (fun error after => error = .cancelled ∧ Sound policy trusted handed true false after)
      capture := by
  unfold Spill.spill
  apply Ends.bind
  apply Ends.reads
  simp only [memory.buffer]
  apply Ends.bind
  apply exceptOsError_ends
  apply Ends.map
  apply (createPublishedSpill_ends memory total none).mono
  · intro number made half
    obtain ⟨rfl, half⟩ := half
    apply Ends.bind
    apply exceptOsError_ends
    have wrote := @Half.onFile _ _ _ (·.write handed replies.write.toAnswer) half
      (fun closed => closed) (half.holds.write (List.prefix_refl _))
    have flushed := @Half.onFile _ _ _ (·.flush replies.flush.toAnswer) wrote
      (fun closed => closed) (wrote.holds.flush _)
    apply Ends.bind
    apply open_ends half.found rfl
    apply blocking_ends
    · intro _ unharmed
      apply Ends.bind
      apply open_ends wrote.found rfl
      apply blocking_ends
      · intro _ _
        apply Ends.returns
        simp only [if_true]
        apply adoptPrefix_ends flushed ?_ rfl rfl
        rw [SpillFile.flush_contents, SpillFile.write_contents, unharmed]
        rfl
      · intro name _ _
        refine ⟨?_, fun other => absurd rfl (other name)⟩
        intro same _
        apply Ends.bind
        apply (discardFailedSpill_ends flushed).mono
        · exact fun _ _ sound => Ends.returns (Ends.returns sound)
        · exact fun _ _ interrupted => interrupted
      · intro _
        exact ⟨(fun _ other => by cases other), fun _ => ⟨rfl, flushed.interrupted⟩⟩
    · intro name _ _
      refine ⟨?_, fun other => absurd rfl (other name)⟩
      intro same _
      apply Ends.bind
      apply (discardFailedSpill_ends wrote).mono
      · exact fun _ _ sound => Ends.returns (Ends.returns sound)
      · exact fun _ _ interrupted => interrupted
    · intro _
      exact ⟨(fun _ other => by cases other), fun _ => ⟨rfl, wrote.interrupted⟩⟩
  · intro error after ended
    rcases ended with ⟨rfl, interrupted⟩ | ⟨⟨name, rfl⟩, rfl⟩
    · exact ⟨(fun _ other => by cases other), fun _ => ⟨rfl, interrupted⟩⟩
    · refine ⟨?_, fun other => absurd rfl (other name)⟩
      intro same _
      apply Ends.bind
      apply failStorage_ends
      intro events
      apply Ends.returns
      apply Ends.returns
      apply Sound.of_memory
      · exact { memory with untried := fun never => by cases never }
      · exact total
      · intro other member
        rw [show _ = ([] : List SpillHandle) from none] at member
        cases member

theorem append_ends {chunk : List UInt8} {reply : Reply}
    (spilled : Spilled policy capture spill) (opened : spill.file.closed = false)
    (total : capture.total = (handed ++ chunk).length) (holds : spill.file.Holds handed)
    (honest : capture.failed = none → spill.file.contents = handed)
    (heard : trusted → capture.failed = none → reply.cancelled = true → reply.failure = none) :
    Ends (append stream chunk reply)
      (fun _ => Sound policy trusted (handed ++ chunk) false false)
      (fun error after => error = .cancelled ∧
        Sound policy trusted (handed ++ chunk) true false after)
      capture := by
  unfold append
  apply Ends.bind
  apply Ends.reads
  cases failed : capture.failed with
  | some name =>
      apply Ends.returns
      apply Sound.of_spilled spilled total (holds.mono (List.prefix_append _ _))
      · exact fun closed => nomatch opened.symm.trans closed
      · exact nofun
      · exact fun _ unharmed => nomatch failed.symm.trans unharmed
  | none =>
      simp only [spilled.file]
      have given := honest failed
      have wrote := @Spilled.onFile _ _ _ (·.write chunk reply.toAnswer) spilled
        (fun closed => closed) spilled.kept
      have landed : (spill.file.write chunk reply.toAnswer).Holds (handed ++ chunk) := by
        apply (holds.mono (List.prefix_append _ _)).write
        rw [given]
      have contents : reply.failure = none →
          (spill.file.write chunk reply.toAnswer).contents = handed ++ chunk := by
        intro unharmed
        rw [SpillFile.write_contents, given, unharmed]
        rfl
      have still : spill.file.closed = true → false = true := fun closed =>
        nomatch opened.symm.trans closed
      apply Ends.bind
      apply exceptOsError_ends
      apply Ends.bind
      apply open_ends spilled.found opened
      apply blocking_ends
      · intro _ unharmed
        apply Ends.returns
        exact Sound.of_spilled { wrote with } total landed still nofun
          fun _ _ _ => contents unharmed
      · intro name _ _
        refine ⟨?_, fun other => absurd rfl (other name)⟩
        intro same _
        apply Ends.bind
        apply failStorage_ends
        intro events
        apply Ends.returns
        exact Sound.of_spilled { wrote with } total landed still nofun fun _ unharmed =>
          nomatch unharmed
      · intro interrupted
        refine ⟨nofun, fun _ => ⟨rfl, Sound.of_spilled wrote total landed still nofun ?_⟩⟩
        intro either unharmed _
        exact contents (heard (either.resolve_left nofun) failed interrupted)

theorem absorb_ends {chunk : List UInt8} {write : Reply} {replies : SpillReplies}
    (sound : Sound policy trusted handed false false capture)
    (heard : trusted → capture.path.isSome = true → capture.failed = none →
      write.cancelled = true → write.failure = none) :
    Ends (absorb policy stream chunk write replies)
      (fun _ => Sound policy trusted (handed ++ chunk) false false)
      (fun error after => error = .cancelled ∧
        Sound policy trusted (handed ++ chunk) true false after)
      capture := by
  unfold absorb
  refine Ends.bind (Ends.updates (Ends.bind (Ends.reads ?_)))
  have length : capture.total + chunk.length = (handed ++ chunk).length := by
    rw [sound.total, List.length_append]
  cases sound.phase with
  | provisional spill provisional interrupted => cases interrupted
  | spilled spill spilled opened released =>
      have inside : spill ∈ capture.files := by
        rw [spilled.files]
        exact List.mem_singleton_self _
      have some : capture.path.isSome = true := by
        rw [spilled.path]
        rfl
      have counted : Spilled policy { capture with total := capture.total + chunk.length }
          spill := { spilled with }
      have honest : capture.failed = none → spill.file.contents = handed := fun unharmed =>
        sound.honest (.inl rfl) some unharmed rfl spill inside
      generalize same : { capture with total := capture.total + chunk.length } = after at *
      have failed : after.failed = capture.failed := by rw [← same]
      have total : after.total = (handed ++ chunk).length := by rw [← same, ← length]
      simp only [counted.path]
      apply append_ends counted (Bool.eq_false_iff.mpr fun closed => nomatch opened closed)
        total (sound.holds spill inside)
      · rwa [failed]
      · intro trust unharmed
        exact heard trust some (failed.symm.trans unharmed)
  | memory memory =>
      have extended : Memory { capture with
          total := capture.total + chunk.length
          buffer := some (handed ++ chunk) } (handed ++ chunk) :=
        { memory with buffer := rfl }
      simp only [memory.path, memory.buffer]
      apply Ends.bind
      apply Ends.updates
      rw [memory.path] at extended
      apply Ends.branch
      · intro spills
        apply spill_ends extended length
        apply memory.untried
        cases failed : capture.failed with
        | none => rfl
        | some name =>
            unfold shouldSpill at spills
            simp only [failed] at spills
            cases spills
      · intro _
        apply Ends.returns
        apply Sound.of_memory extended length
        exact fun other member => (sound.holds other member).mono (List.prefix_append _ _)

end Cuprum.Spill
