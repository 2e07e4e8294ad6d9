import Cuprum.Drain.Policies

namespace Cuprum.Drain

open Effect
open Relay (StreamOperationEvent StreamOperationMeasurement StreamOperationOutcome)

variable {κ ρ φ π η α : Type} (config : StreamConfig κ ρ φ π η)

def StreamRead.data (read : StreamRead ρ) : List UInt8 :=
  read.reply.toOption.getD []

def Capturing.record (state : Capturing κ η) (chunk : List UInt8) : Capturing κ η :=
  { state with measurement := state.measurement.map (·.recordRead chunk) }

/-! The loop, up to where a cancellation stops it. -/

/-- A chunk is taken: recorded and delivered. -/
def takeChunk (chunk : List UInt8) (absorbing : ρ) : DrainStep config.echo κ η Bool := do
  onCapturing (recordStreamRead chunk)
  deliverChunk config chunk absorbing

/-- These reads were delivered in full. -/
inductive Delivered :
    List (StreamRead ρ) → DrainState config.echo κ η → DrainState config.echo κ η → Prop
  | none (state : DrainState config.echo κ η) : Delivered [] state state
  | next {read : StreamRead ρ} {reads : List (StreamRead ρ)} {chunk : List UInt8}
      {state middle reached : DrainState config.echo κ η}
      (reply : read.reply = .ok chunk) (more : chunk ≠ [])
      (took : takeChunk config chunk read.absorbing state = .ok true middle)
      (rest : Delivered reads middle reached) : Delivered (read :: reads) state reached

/-- The cancellation of a read, or of the absorb of a chunk that was read. -/
inductive Cut (start : DrainState config.echo κ η) :
    List (StreamRead ρ) → List (StreamRead ρ) → Option (StreamRead ρ) →
      DrainState config.echo κ η → DrainState config.echo κ η → Prop
  | read {read : StreamRead ρ} {taken rest : List (StreamRead ρ)}
      {reached : DrainState config.echo κ η} (delivered : Delivered config taken start reached)
      (reply : read.reply = .error .cancelled) :
      Cut start (taken ++ read :: rest) taken none reached reached
  | absorb {read : StreamRead ρ} {taken rest : List (StreamRead ρ)} {chunk : List UInt8}
      {reached stopped : DrainState config.echo κ η}
      (delivered : Delivered config taken start reached) (reply : read.reply = .ok chunk)
      (more : chunk ≠ [])
      (took : takeChunk config chunk read.absorbing reached = .ok false stopped) :
      Cut start (taken ++ read :: rest) taken (some read) reached stopped

/-- A cancellation is delivered at a read, or while a chunk that was read is absorbed: the
absorb would be cancelled, were no failure to displace the cancellation. -/
inductive Struck (heeded : ρ → ρ) (start : DrainState config.echo κ η) :
    List (StreamRead ρ) → List (StreamRead ρ) → Option (StreamRead ρ) → Prop
  | read {read : StreamRead ρ} {taken rest : List (StreamRead ρ)}
      {reached : DrainState config.echo κ η} (delivered : Delivered config taken start reached)
      (reply : read.reply = .error .cancelled) :
      Struck heeded start (taken ++ read :: rest) taken none
  | absorb {read : StreamRead ρ} {taken rest : List (StreamRead ρ)} {chunk : List UInt8}
      {reached stopped : DrainState config.echo κ η}
      (delivered : Delivered config taken start reached) (reply : read.reply = .ok chunk)
      (more : chunk ≠ [])
      (struck : takeChunk config chunk (heeded read.absorbing) reached = .ok false stopped) :
      Struck heeded start (taken ++ read :: rest) taken (some read)

/-- A cancellation that a failure displaced: the drain does not stop at this chunk. -/
inductive Displaced (heeded : ρ → ρ) (start : DrainState config.echo κ η) :
    List (StreamRead ρ) → List (StreamRead ρ) → StreamRead ρ → List (StreamRead ρ) → Prop
  | absorb {read : StreamRead ρ} {taken rest : List (StreamRead ρ)} {chunk : List UInt8}
      {reached stopped : DrainState config.echo κ η}
      (delivered : Delivered config taken start reached) (reply : read.reply = .ok chunk)
      (more : chunk ≠ [])
      (struck : takeChunk config chunk (heeded read.absorbing) reached = .ok false stopped)
      (displaced : ∀ state, takeChunk config chunk read.absorbing reached ≠ .ok false state) :
      Displaced heeded start (taken ++ read :: rest) taken read rest

variable {config} {read : StreamRead ρ} {reads taken rest : List (StreamRead ρ)}
  {chunk : List UInt8} {start state middle reached stopped : DrainState config.echo κ η}
  {interrupted : Option (StreamRead ρ)}

theorem drainChunks_cons (reply : read.reply = .ok chunk) (more : chunk ≠ []) :
    drainChunks config (read :: reads) state =
      (takeChunk config chunk read.absorbing >>= fun took =>
        if took then drainChunks config reads else pure false) state := by
  have some : chunk.isEmpty = false := Bool.eq_false_iff.mpr fun empty =>
    more (List.isEmpty_iff.mp empty)
  rw [drainChunks]
  simp only [reply, some, Bool.false_eq_true, if_false]
  rfl

/-- The end of the stream, which is recorded as a read of nothing. -/
theorem drainChunks_nil :
    drainChunks config [] state = .ok true { state with capturing := state.capturing.record [] } :=
  rfl

theorem drainChunks_end (reply : read.reply = .ok []) :
    drainChunks config (read :: reads) = drainChunks config [] := by
  unfold drainChunks
  simp only [reply]
  rfl

theorem Delivered.drainChunks (delivered : Delivered config taken start reached)
    (rest : List (StreamRead ρ)) :
    drainChunks config (taken ++ rest) start = drainChunks config rest reached := by
  induction delivered with
  | none state => rfl
  | next reply more took _ ih =>
      rw [List.cons_append, drainChunks_cons reply more, run_bind, took]
      exact ih

theorem Cut.stops (cut : Cut config start reads taken interrupted reached stopped) :
    drainChunks config reads start = .ok false stopped := by
  cases cut with
  | read delivered reply =>
      rw [delivered.drainChunks]
      unfold Drain.drainChunks
      simp only [reply]
      rfl
  | absorb delivered reply more took =>
      rw [delivered.drainChunks, drainChunks_cons reply more, run_bind, took]
      rfl

/-! A chunk, and the sink that takes it. -/

def Capturing.note (state : Capturing κ η) (chunk : List UInt8) : Capturing κ η :=
  { state.record chunk with activity := state.activity + 1 }

theorem takeChunk_eq {absorbing : ρ} : takeChunk config chunk absorbing state =
    (onCapturing (absorbIntoCapture config chunk absorbing) >>= fun absorbed =>
      if absorbed then do
        fanOutChunk config chunk
        pure true
      else pure false) { state with capturing := state.capturing.note chunk } :=
  rfl

section

variable {sink : CaptureSink κ ρ φ π} {absorbing : ρ} {after whole : κ}

theorem absorbIntoCapture_absorbed {capturing : Capturing κ η}
    (sunk : config.captureSink = some sink)
    (absorbed : sink.absorb chunk absorbing capturing.capture = .ok () whole) :
    absorbIntoCapture config chunk absorbing capturing =
      .ok true { capturing with capture := whole } := by
  have ran : (onCapture (sink.absorb chunk absorbing) : Program (Capturing κ η) Raised Unit)
      capturing = .ok () { capturing with capture := whole } := zoom_ok absorbed
  unfold absorbIntoCapture
  simp only [sunk]
  rw [run_tryCatch, run_bind, ran]
  rfl

theorem absorbIntoCapture_cut {capturing : Capturing κ η}
    (sunk : config.captureSink = some sink)
    (cut : sink.absorb chunk absorbing capturing.capture = .error .cancelled after) :
    absorbIntoCapture config chunk absorbing capturing =
      .ok false { capturing with capture := after } := by
  have ran : (onCapture (sink.absorb chunk absorbing) : Program (Capturing κ η) Raised Unit)
      capturing = .error .cancelled { capturing with capture := after } := zoom_error cut
  unfold absorbIntoCapture
  simp only [sunk]
  rw [run_tryCatch, run_bind, ran]
  rfl

theorem takeChunk_absorbed (sunk : config.captureSink = some sink)
    (absorbed : sink.absorb chunk absorbing state.capturing.capture = .ok () whole) :
    takeChunk config chunk absorbing state =
      (fanOutChunk config chunk >>= fun _ => pure true)
        { state with capturing := { state.capturing.note chunk with capture := whole } } := by
  have ran : (onCapturing (absorbIntoCapture config chunk absorbing) :
      DrainStep config.echo κ η Bool) { state with capturing := state.capturing.note chunk } =
      .ok true { state with capturing := { state.capturing.note chunk with capture := whole } } :=
    zoom_ok (absorbIntoCapture_absorbed sunk absorbed)
  rw [takeChunk_eq, run_bind, ran]
  rfl

theorem takeChunk_uncaptured (sunk : config.captureSink = none) :
    takeChunk config chunk absorbing state =
      (fanOutChunk config chunk >>= fun _ => pure true)
        { state with capturing := state.capturing.note chunk } := by
  have ran : (onCapturing (absorbIntoCapture config chunk absorbing) :
      DrainStep config.echo κ η Bool) { state with capturing := state.capturing.note chunk } =
      .ok true { state with capturing := state.capturing.note chunk } := by
    refine zoom_ok ?_
    unfold absorbIntoCapture
    simp only [sunk]
    rfl
  rw [takeChunk_eq, run_bind, ran]
  rfl

theorem takeChunk_cut (sunk : config.captureSink = some sink)
    (cut : sink.absorb chunk absorbing state.capturing.capture = .error .cancelled after) :
    takeChunk config chunk absorbing state =
      .ok false { state with capturing := { state.capturing.note chunk with capture := after } } := by
  have ran : (onCapturing (absorbIntoCapture config chunk absorbing) :
      DrainStep config.echo κ η Bool) { state with capturing := state.capturing.note chunk } =
      .ok false { state with capturing := { state.capturing.note chunk with capture := after } } :=
    zoom_ok (absorbIntoCapture_cut sunk cut)
  rw [takeChunk_eq, run_bind, ran]
  rfl

theorem left_onEcho {echo : EchoConfig} (program : EchoStep echo α)
    (state : DrainState echo κ η) : (left (onEcho program) state).capturing = state.capturing := by
  unfold onEcho
  rw [left_zoom]

theorem absorbIntoCapture_kept (absorbing : ρ) (capturing : Capturing κ η) :
    ∃ capture, left (absorbIntoCapture config chunk absorbing) capturing =
      { capturing with capture := capture } := by
  let Kept (after : Capturing κ η) : Prop := ∃ capture, after = { capturing with capture := capture }
  suffices ends : Ends (absorbIntoCapture config chunk absorbing) (fun _ => Kept)
      (fun _ => Kept) capturing from ends_left_iff.mp ends
  unfold absorbIntoCapture
  cases config.captureSink with
  | none => exact .returns ⟨capturing.capture, rfl⟩
  | some sink =>
      have absorbed : Ends (onCapture (sink.absorb chunk absorbing) :
          Program (Capturing κ η) Raised Unit) (fun _ => Kept) (fun _ => Kept) capturing :=
        ends_left_iff.mpr ⟨_, left_zoom _ _ _ _⟩
      refine .handle (.bind (absorbed.mono (fun _ _ kept => .returns kept) ?_))
      intro error after kept
      exact .branch (fun _ => .returns kept) fun _ => .raises kept

/-- Mirroring and publishing a chunk leave what was captured and measured as it is. -/
theorem fanOutChunk_kept (chunk : List UInt8) (state : DrainState config.echo κ η) :
    ∃ lines, (left (fanOutChunk config chunk) state).capturing =
      { state.capturing with lines := lines } := by
  let Kept (after : DrainState config.echo κ η) : Prop :=
    ∃ lines, after.capturing = { state.capturing with lines := lines }
  suffices ends : Ends (fanOutChunk config chunk) (fun _ => Kept) (fun _ => Kept) state from
    ends_left_iff.mp ends
  refine .bind ?_
  have mirrored : Ends (mirrorChunk config chunk : DrainStep config.echo κ η Unit)
      (fun _ after => after.capturing = state.capturing)
      (fun _ after => after.capturing = state.capturing) state := by
    refine .branch (fun _ => ?_) fun _ => .returns rfl
    exact ends_left_iff.mpr (left_onEcho _ _)
  refine mirrored.mono ?_ fun _ after same => ⟨state.capturing.lines, same⟩
  intro _ after same
  cases config.lines with
  | none => exact .returns ⟨state.capturing.lines, same⟩
  | some publisher =>
      refine ends_left_iff.mpr ?_
      unfold onCapturing onLines
      rw [left_zoom, left_zoom, same]
      exact ⟨_, rfl⟩

variable {heeded uninterrupted : ρ → ρ} {size : π → Nat} {Holds : List UInt8 → κ → Prop}
  {Recovers : List UInt8 → κ → ρ → φ → Prop} {Answers : List UInt8 → π → π → Prop}
  {handed : List UInt8}

theorem fanOut_of_take {took : Bool}
    (ran : (fanOutChunk config chunk >>= fun _ => pure true) state = .ok took middle) :
    took = true ∧ middle.capturing.capture = state.capturing.capture := by
  obtain ⟨lines, same⟩ := fanOutChunk_kept chunk state
  rw [run_bind] at ran
  unfold left at same
  cases fanned : fanOutChunk config chunk state with
  | error error after =>
      rw [fanned] at ran
      cases ran
  | ok value after =>
      rw [fanned] at ran same
      cases ran
      have kept : middle.capturing = { state.capturing with lines := lines } := same
      exact ⟨rfl, by rw [kept]⟩

/-- A chunk that was taken is held; one that was interrupted is told of. -/
theorem takeChunk_holds
    (law : Interruptible sink heeded uninterrupted size Holds Recovers Answers)
    (sunk : config.captureSink = some sink) (holds : Holds handed state.capturing.capture)
    {took : Bool} (ran : takeChunk config chunk absorbing state = .ok took middle) :
    if took then Holds (handed ++ chunk) middle.capturing.capture
    else ∀ finalizing answer, outcome (sink.finalize finalizing) middle.capturing.capture =
      .ok answer → size answer = (handed ++ chunk).length := by
  obtain ⟨whole, _, kept, absorbed | ⟨after, cut, _⟩⟩ := law.absorb chunk absorbing holds
  · rw [takeChunk_absorbed sunk absorbed] at ran
    obtain ⟨rfl, same⟩ := fanOut_of_take ran
    rw [if_pos rfl, same]
    exact kept
  · rw [takeChunk_cut sunk cut] at ran
    cases ran
    exact fun finalizing answer => law.cut holds cut

theorem Delivered.holds
    (law : Interruptible sink heeded uninterrupted size Holds Recovers Answers)
    (sunk : config.captureSink = some sink) (delivered : Delivered config taken start reached)
    (holds : Holds handed start.capturing.capture) :
    Holds (handed ++ taken.flatMap StreamRead.data) reached.capturing.capture := by
  induction delivered generalizing handed with
  | none state => simpa using holds
  | @next read reads chunk state middle reached reply more took _ ih =>
      have taken : read.data = chunk := by simp [StreamRead.data, reply, Except.toOption]
      have held := ih (takeChunk_holds law sunk holds took)
      simpa [taken] using held

/-- No chunk is forgotten by what a drain may finalize. -/
theorem drainChunks_holds
    (law : Interruptible sink heeded uninterrupted size Holds Recovers Answers)
    (sunk : config.captureSink = some sink) (holds : Holds handed start.capturing.capture)
    {ended : Bool} (ran : drainChunks config reads start = .ok ended stopped) {finalizing : φ}
    {answer : π} (finalized : outcome (sink.finalize finalizing) stopped.capturing.capture =
      .ok answer) : handed.length ≤ size answer := by
  induction reads generalizing handed start with
  | nil =>
      rw [drainChunks_nil] at ran
      cases ran
      exact (law.tells holds finalized).ge
  | cons read reads ih =>
      cases reply : read.reply with
      | error error =>
          unfold drainChunks at ran
          simp only [reply] at ran
          split at ran
          · cases ran
            exact (law.tells holds finalized).ge
          · contradiction
      | ok chunk =>
          by_cases empty : chunk = []
          · subst empty
            rw [drainChunks_end reply, drainChunks_nil] at ran
            cases ran
            exact (law.tells holds finalized).ge
          · rw [drainChunks_cons reply empty, run_bind] at ran
            have longer : handed.length ≤ (handed ++ chunk).length := by simp
            cases took : takeChunk config chunk read.absorbing start with
            | error error after =>
                rw [took] at ran
                contradiction
            | ok delivered after =>
                have held := takeChunk_holds law sunk holds took
                rw [took] at ran
                cases delivered with
                | false =>
                    cases ran
                    exact longer.trans_eq (held finalizing answer finalized).symm
                | true => exact longer.trans (ih held ran)

/-- A chunk that is read later is added to what a drain may finalize. -/
theorem drainChunks_exceeds
    (law : Interruptible sink heeded uninterrupted size Holds Recovers Answers)
    (sunk : config.captureSink = some sink) (holds : Holds handed start.capturing.capture)
    (reply : read.reply = .ok chunk) (more : chunk ≠ []) {ended : Bool}
    (ran : drainChunks config (read :: reads) start = .ok ended stopped) {finalizing : φ}
    {answer : π} (finalized : outcome (sink.finalize finalizing) stopped.capturing.capture =
      .ok answer) : handed.length < size answer := by
  have longer : handed.length < (handed ++ chunk).length := by
    have := List.length_pos_of_ne_nil more
    simp [this]
  rw [drainChunks_cons reply more, run_bind] at ran
  cases took : takeChunk config chunk read.absorbing start with
  | error error after =>
      rw [took] at ran
      contradiction
  | ok delivered after =>
      have held := takeChunk_holds law sunk holds took
      rw [took] at ran
      cases delivered with
      | false =>
          cases ran
          exact longer.trans_eq (held finalizing answer finalized).symm
      | true => exact longer.trans_le (drainChunks_holds law sunk held ran finalized)

/-- An absorb that is interrupted, was struck. -/
theorem Cut.struck
    (law : Interruptible sink heeded uninterrupted size Holds Recovers Answers)
    (sunk : config.captureSink = none ∨ config.captureSink = some sink)
    (holds : Holds [] start.capturing.capture)
    (cut : Cut config start reads taken interrupted reached stopped) :
    Struck config heeded start reads taken interrupted := by
  cases cut with
  | read delivered reply => exact .read delivered reply
  | @absorb read taken rest chunk reached stopped delivered reply more took =>
      rcases sunk with none | sunk
      · rw [takeChunk_uncaptured none] at took
        cases (fanOut_of_take took).1
      · have held := delivered.holds law sunk holds
        obtain ⟨whole, _, _, absorbed | ⟨after, cut, _⟩⟩ := law.absorb chunk read.absorbing held
        · rw [takeChunk_absorbed sunk absorbed] at took
          cases (fanOut_of_take took).1
        · obtain ⟨other, struck⟩ := law.heard cut
          exact .absorb delivered reply more (takeChunk_cut sunk struck)

theorem Displaced.struck {rest : List (StreamRead ρ)}
    (displaced : Displaced config heeded start reads taken read rest) :
    Struck config heeded start reads taken (some read) := by
  cases displaced with
  | absorb delivered reply more struck _ => exact .absorb delivered reply more struck

theorem Struck.cut_or_displaced
    (struck : Struck config heeded start reads taken interrupted) :
    (∃ reached stopped, Cut config start reads taken interrupted reached stopped) ∨
      ∃ read rest, interrupted = some read ∧ Displaced config heeded start reads taken read rest := by
  cases struck with
  | read delivered reply => exact .inl ⟨_, _, .read delivered reply⟩
  | @absorb read taken rest chunk reached stopped delivered reply more struck =>
      by_cases cut : ∃ state, takeChunk config chunk read.absorbing reached = .ok false state
      · exact .inl ⟨_, _, .absorb delivered reply more cut.choose_spec⟩
      · exact .inr ⟨read, rest, rfl, .absorb delivered reply more struck (not_exists.mp cut)⟩

end

end Cuprum.Drain
