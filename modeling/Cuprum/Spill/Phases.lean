import Cuprum.Spill.Session

namespace Cuprum.Spill

open Cuprum.Effect

/-! The calls of a capture, and the phases it goes through. -/

section Calls

variable {α : Type} {capture : FileAccumulator}

theorem exceptOsError_ends {program : Capture α} {handler : String → Capture α}
    {returned : α → FileAccumulator → Prop} {raised : Raised → FileAccumulator → Prop}
    (ends : Ends program returned
      (fun error after =>
        (∀ name, error = .os name → Ends (handler name) returned raised after) ∧
          ((∀ name, error ≠ .os name) → raised error after)) capture) :
    Ends (exceptOsError program handler) returned raised capture := by
  apply Ends.handle
  apply ends.mono (fun _ _ holds => holds)
  intro error after holds
  cases error with
  | os name => exact holds.1 name rfl
  | cancelled => exact Ends.raises (holds.2 nofun)
  | closedFile => exact Ends.raises (holds.2 nofun)
  | undecodable => exact Ends.raises (holds.2 nofun)

theorem run_during (call : Capture α) :
    run (some .during) call capture =
      match call capture with
      | .ok _ after => .error .cancelled after
      | .error error after => .error error after := by
  change (call >>= fun _ => throw .cancelled) capture = _
  rw [run_bind]
  cases call capture <;> rfl

theorem left_run (interruption : Option Interruption) (call : Capture α) :
    left (run interruption call) capture = left call capture := by
  match interruption with
  | none | some .after => rfl
  | some .during =>
      unfold left
      rw [run_during]
      cases call capture <;> rfl

theorem run_congr {call other : Capture α} (interruption : Option Interruption)
    (same : call capture = other capture) :
    run interruption call capture = run interruption other capture := by
  match interruption with
  | none => exact same
  | some .during => rw [run_during, run_during, same]
  | some .after =>
      change EStateM.Result.error _ (left call capture) = .error _ (left other capture)
      unfold left
      rw [same]

/-- A worker call comes to what it answers, unless its caller is left with a cancellation. -/
theorem run_ends {reply : Reply} {call : Capture α} {returned : α → FileAccumulator → Prop}
    {raised : Raised → FileAccumulator → Prop}
    (called : Ends call
      (fun value after => reply.failure = none ∧
        (reply.cancelled = false → returned value after) ∧
        (reply.cancelled = true → raised .cancelled after))
      (fun error after => ∃ name, error = .os name ∧ reply.failure = some name ∧
        (reply.cancelled = false → raised error after) ∧
        (reply.cancelled = true → raised .cancelled after)) capture) :
    Ends (run reply.interruption call) returned raised capture := by
  match interruption : reply.interruption with
  | none =>
      have heard : reply.cancelled = false := by rw [Reply.cancelled, interruption]
      refine called.mono ?_ ?_
      · exact fun _ _ accepted => accepted.2.1 heard
      · rintro _ _ ⟨_, _, _, refused, _⟩
        exact refused heard
  | some .during =>
      refine .bind (called.mono ?_ ?_)
      · rintro _ _ ⟨accepted, _, cut⟩
        exact .raises (cut (by rw [Reply.cancelled, interruption, accepted]; rfl))
      · rintro _ _ ⟨_, _, failure, refused, _⟩
        exact refused (by rw [Reply.cancelled, interruption, failure]; rfl)
  | some .after =>
      have cut : reply.cancelled = true := by rw [Reply.cancelled, interruption]
      change raised .cancelled (left call capture)
      refine called.holds_left ?_ ?_
      · exact fun _ _ accepted => accepted.2.2 cut
      · rintro _ _ ⟨_, _, _, _, raises⟩
        exact raises cut

/-- A worker call changes the file in any case. -/
theorem blocking_ends {number : Nat} {reply : Reply} {update : SpillFile → SpillFile}
    {returned : Unit → FileAccumulator → Prop} {raised : Raised → FileAccumulator → Prop}
    (returns : reply.cancelled = false → reply.failure = none →
      returned () (capture.onFile number update))
    (fails : ∀ name, reply.cancelled = false → reply.failure = some name →
      raised (.os name) (capture.onFile number update))
    (cancels : reply.cancelled = true → raised .cancelled (capture.onFile number update)) :
    Ends (run reply.interruption (blocking number reply.toAnswer update)) returned raised
      capture := by
  refine run_ends (.bind (.updates (.attempt (fun none => ?_) fun error some => ?_)))
  · have accepted := Option.map_eq_none_iff.mp none
    exact ⟨accepted, fun heard => returns heard accepted, cancels⟩
  · obtain ⟨name, refused, rfl⟩ := Option.map_eq_some_iff.mp some
    exact ⟨name, rfl, refused, fun heard => fails name heard refused, cancels⟩

/-- A close or an unlink whose own failure is suppressed. -/
theorem suppressed_ends {number : Nat} {answer : Answer} {update : SpillFile → SpillFile}
    {returned : Unit → FileAccumulator → Prop} {raised : Raised → FileAccumulator → Prop}
    (returns : returned () (capture.onFile number update)) :
    Ends (exceptOsError (blocking number answer update) fun _ => pure ()) returned raised
      capture := by
  refine exceptOsError_ends (.bind (.updates (.attempt (fun _ => returns) ?_)))
  intro error some
  obtain ⟨name, _, rfl⟩ := Option.map_eq_some_iff.mp some
  exact ⟨fun _ _ => .returns returns, fun other => absurd rfl (other name)⟩

theorem tolerated_ends {number : Nat} {reply : Reply} {update : SpillFile → SpillFile}
    {returned : Unit → FileAccumulator → Prop} {raised : Raised → FileAccumulator → Prop}
    (returns : returned () (capture.onFile number update))
    (cancels : reply.cancelled = true → raised .cancelled (capture.onFile number update)) :
    Ends (exceptOsError (run reply.interruption (blocking number reply.toAnswer update))
      fun _ => pure ()) returned raised capture := by
  apply exceptOsError_ends
  apply blocking_ends
  · exact fun _ _ => returns
  · exact fun name _ _ => ⟨fun _ _ => Ends.returns returns, fun other => absurd rfl (other name)⟩
  · exact fun interrupted => ⟨nofun, fun _ => cancels interrupted⟩

theorem whileOpen_eq {number : Nat} {call : Capture Unit} {spill : SpillHandle}
    (found : capture.files[number]? = some spill) (opened : spill.file.closed = false) :
    whileOpen number call capture = call capture := by
  rw [whileOpen_apply, found]
  simp only [opened, Bool.false_eq_true, if_false]

/-- The file is open, so that the call is made. -/
theorem open_ends {number : Nat} {call : Capture Unit} {interruption : Option Interruption}
    {spill : SpillHandle} {returned : Unit → FileAccumulator → Prop}
    {raised : Raised → FileAccumulator → Prop} (found : capture.files[number]? = some spill)
    (opened : spill.file.closed = false)
    (ends : Ends (run interruption call) returned raised capture) :
    Ends (run interruption (whileOpen number call)) returned raised capture :=
  .of_eq (run_congr interruption (whileOpen_eq found opened)) ends

theorem closed_ends {number : Nat} {call : Capture Unit} {interruption : Option Interruption}
    {spill : SpillHandle} {returned : Unit → FileAccumulator → Prop}
    {raised : Raised → FileAccumulator → Prop} (found : capture.files[number]? = some spill)
    (closed : spill.file.closed = true) (refused : raised .closedFile capture)
    (cancels : raised .cancelled capture) :
    Ends (run interruption (whileOpen number call)) returned raised capture := by
  have same : whileOpen number call capture = (throw .closedFile : Capture Unit) capture := by
    rw [whileOpen_apply, found]
    simp only [closed, if_true]
  refine .of_eq (run_congr interruption same) ?_
  match interruption with
  | none | some .during => exact refused
  | some .after => exact cancels

end Calls

/-- All of the stream is in memory; a file that was given up is closed, and its removal
was attempted. -/
structure Memory (capture : FileAccumulator) (handed : List UInt8) : Prop where
  path : capture.path = none
  file : capture.file = none
  handle : capture.handle = none
  provisional : capture.provisional = none
  buffer : capture.buffer = some handed
  untried : capture.failed = none → capture.files = []
  given : ∀ spill ∈ capture.files, spill.file.closed = true ∧ 0 < spill.file.removals

/-- A file that has not taken the prefix yet is the run's to remove. -/
structure Provisional (capture : FileAccumulator) (handed : List UInt8) (spill : SpillHandle) :
    Prop where
  path : capture.path = none
  file : capture.file = none
  handle : capture.handle = some 0
  provisional : capture.provisional = some 0
  buffer : capture.buffer = some handed
  files : capture.files = [spill]
  keep : spill.keep = false
  closed : spill.closed = true → spill.file.closed = true

structure Spilled (policy : FileBackedCapture) (capture : FileAccumulator)
    (spill : SpillHandle) : Prop where
  path : capture.path = some 0
  file : capture.file = some 0
  handle : capture.handle = some 0
  files : capture.files = [spill]
  keep : spill.keep = policy.keepFile
  closed : spill.closed = true → spill.file.closed = true
  kept : policy.keepFile = true → spill.file.removals = 0

/-- Where a capture is, by what its owner knows. -/
inductive Phase (policy : FileBackedCapture) (capture : FileAccumulator)
    (handed : List UInt8) (cancelled cleaned : Bool) : Prop
  | memory (memory : Memory capture handed)
  | provisional (spill : SpillHandle) (provisional : Provisional capture handed spill)
      (interrupted : cancelled = true)
      (released : cleaned = true → spill.file.closed = true ∧ 0 < spill.file.removals)
  | spilled (spill : SpillHandle) (spilled : Spilled policy capture spill)
      (opened : spill.file.closed = true → cleaned = true)
      (released : cleaned = true → spill.file.closed = true ∧
        (policy.keepFile = false → 0 < spill.file.removals))

/-- Files hold the first bytes of the stream; unless it was cancelled, or if it is trusted
to have been told of every failure, a capture that knows of none has given its file all of
them. -/
structure Sound (policy : FileBackedCapture) (trusted : Prop) (handed : List UInt8)
    (cancelled cleaned : Bool) (capture : FileAccumulator) : Prop where
  total : capture.total = handed.length
  holds : ∀ spill ∈ capture.files, spill.file.Holds handed
  phase : Phase policy capture handed cancelled cleaned
  honest : cancelled = false ∨ trusted → capture.path.isSome = true → capture.failed = none →
    cleaned = false → ∀ spill ∈ capture.files, spill.file.contents = handed

variable {policy : FileBackedCapture} {capture : FileAccumulator} {handed : List UInt8}
  {spill : SpillHandle} {trusted : Prop} {cancelled cleaned : Bool}

theorem FileAccumulator.onFile_files {update : SpillFile → SpillFile}
    (files : capture.files = [spill]) :
    (capture.onFile 0 update).files = [{ spill with file := update spill.file }] := by
  simp [onFile, onHandle, files]

namespace Provisional

theorem onFile {update : SpillFile → SpillFile} (provisional : Provisional capture handed spill)
    (closed : spill.file.closed = true → (update spill.file).closed = true) :
    Provisional (capture.onFile 0 update) handed
      { spill with file := update spill.file } where
  path := provisional.path
  file := provisional.file
  handle := provisional.handle
  provisional := provisional.provisional
  buffer := provisional.buffer
  files := FileAccumulator.onFile_files provisional.files
  keep := provisional.keep
  closed := fun claimed => closed (provisional.closed claimed)

theorem found (provisional : Provisional capture handed spill) :
    capture.files[0]? = some spill := by
  rw [provisional.files]
  rfl

end Provisional

namespace Spilled

theorem onFile {update : SpillFile → SpillFile} (spilled : Spilled policy capture spill)
    (closed : spill.file.closed = true → (update spill.file).closed = true)
    (kept : policy.keepFile = true → (update spill.file).removals = 0) :
    Spilled policy (capture.onFile 0 update) { spill with file := update spill.file } where
  path := spilled.path
  file := spilled.file
  handle := spilled.handle
  files := FileAccumulator.onFile_files spilled.files
  keep := spilled.keep
  closed := fun claimed => closed (spilled.closed claimed)
  kept := kept

theorem found (spilled : Spilled policy capture spill) : capture.files[0]? = some spill := by
  rw [spilled.files]
  rfl

end Spilled

namespace Sound

theorem cancel (sound : Sound policy trusted handed cancelled cleaned capture) :
    Sound policy trusted handed true cleaned capture where
  total := sound.total
  holds := sound.holds
  honest := fun either => sound.honest (.inr (either.resolve_left nofun))
  phase := by
    cases sound.phase with
    | memory memory => exact .memory memory
    | provisional spill provisional interrupted released =>
        exact .provisional spill provisional rfl released
    | spilled spill spilled opened released => exact .spilled spill spilled opened released

theorem of_memory (memory : Memory capture handed) (total : capture.total = handed.length)
    (holds : ∀ spill ∈ capture.files, spill.file.Holds handed) :
    Sound policy trusted handed cancelled cleaned capture where
  total := total
  holds := holds
  phase := .memory memory
  honest := by
    intro _ some
    rw [memory.path] at some
    cases some

theorem of_provisional (provisional : Provisional capture handed spill)
    (total : capture.total = handed.length) (holds : spill.file.Holds handed) :
    Sound policy trusted handed true false capture where
  total := total
  holds := by
    rw [provisional.files]
    intro other member
    rw [List.mem_singleton.mp member]
    exact holds
  phase := .provisional spill provisional rfl nofun
  honest := by
    intro _ some
    rw [provisional.path] at some
    cases some

theorem of_spilled (spilled : Spilled policy capture spill)
    (total : capture.total = handed.length) (holds : spill.file.Holds handed)
    (opened : spill.file.closed = true → cleaned = true)
    (released : cleaned = true → spill.file.closed = true ∧
      (policy.keepFile = false → 0 < spill.file.removals))
    (honest : cancelled = false ∨ trusted → capture.failed = none → cleaned = false →
      spill.file.contents = handed) :
    Sound policy trusted handed cancelled cleaned capture where
  total := total
  holds := by
    rw [spilled.files]
    intro other member
    rw [List.mem_singleton.mp member]
    exact holds
  phase := .spilled spill spilled opened released
  honest := by
    rw [spilled.files]
    intro trust _ unharmed running other member
    rw [List.mem_singleton.mp member]
    exact honest trust unharmed running

end Sound

end Cuprum.Spill
