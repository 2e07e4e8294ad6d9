import Cuprum.BoundedEcho.Settling
import Mathlib.Algebra.GroupWithZero.Nat

namespace Cuprum.BoundedEcho

open Echo

/-- What comes of one write: it is accepted, a full queue rejects some of its source
bytes, a delivery worker that has stopped takes it as undelivered, or it raises. -/
inductive WriteReply
  | accepted
  | saturated (dropped : Nat)
  | undelivered
  | unicodeEncodeError
  | brokenPipeError
  | raised
  deriving DecidableEq

/-- Whatever takes the payloads: a byte buffer, a text sink with its decoder, or a
delivery queue.  A write is told the payload, its source bytes and whether it is the
final one. -/
structure EchoSink where
  State : Type
  write : State → List UInt8 → Nat → Bool → WriteReply × State

inductive EchoErrorCategory
  | unicodeEncode
  | brokenPipe
  | truncated
  | dropped
  deriving DecidableEq

structure EchoEvent where
  errorCategory : EchoErrorCategory
  droppedBytes : Option Nat
  deriving DecidableEq

/-- A hook may raise outside `Exception`; it is asked with the events so far. -/
structure EchoDrain where
  settings : LineSettings
  sink : EchoSink
  bestEffort : Bool
  hookRaises : List EchoEvent → Bool

/-- A drain under an error policy that raises nothing but a `UnicodeError`. -/
structure DrainConfig extends EchoDrain where
  heeded : settings.codec.Heeded

/-- One finished line handed to the sink, its reply, and whether its truncation was
reported. -/
structure EchoEntry where
  line : FinishedLine
  reply : WriteReply
  reported : Bool

structure DrainState (config : EchoDrain) where
  sink : config.sink.State
  disabled : Bool
  raised : Bool
  fallbacks : List EchoErrorCategory
  events : List EchoEvent
  entries : List EchoEntry

section Drain

variable {config : EchoDrain}

def DrainState.initial (config : EchoDrain) (sink : config.sink.State) :
    DrainState config :=
  ⟨sink, false, false, [], [], []⟩

def emitEchoEvent (state : DrainState config) (event : EchoEvent) : DrainState config :=
  { state with
    events := state.events ++ [event]
    raised := config.hookRaises (state.events ++ [event]) }

def recordDroppedDelivery (state : DrainState config) (droppedBytes : Nat) :
    DrainState config :=
  emitEchoEvent { state with fallbacks := state.fallbacks ++ [.dropped] }
    ⟨.dropped, some droppedBytes⟩

/-- Stop echoing for this drain and report the transition once. -/
def disableEcho (state : DrainState config) (category : EchoErrorCategory) :
    DrainState config :=
  emitEchoEvent
    { state with
      disabled := true
      fallbacks := state.fallbacks ++ [category] }
    ⟨category, none⟩

/-- What the drain makes of the sink's reply, and whether it takes the payload for
written. -/
def settleWrite (state : DrainState config) : WriteReply → Bool × DrainState config
  | .accepted => (true, state)
  | .undelivered => (true, state)
  | .saturated dropped =>
      if dropped = 0 then (true, state) else (false, recordDroppedDelivery state dropped)
  | .unicodeEncodeError => (false, disableEcho state .unicodeEncode)
  | .brokenPipeError =>
      if config.bestEffort then (false, disableEcho state .brokenPipe)
      else (false, { state with raised := true })
  | .raised => (false, { state with raised := true })

def writeFinishedEchoLine (limiter : EchoLineLimiter) (ending : List UInt8)
    (state : DrainState config) : DrainState config :=
  match (finishLine limiter ending config.settings).1 with
  | none => { state with raised := true }
  | some finished =>
      if state.disabled then state
      else
        let (reply, sink) :=
          config.sink.write state.sink finished.payload finished.sourceBytes false
        let (wasWritten, settled) := settleWrite { state with sink } reply
        if wasWritten && finished.droppedBytes != 0 then
          emitEchoEvent
            { settled with entries := settled.entries ++ [⟨finished, reply, true⟩] }
            ⟨.truncated, some finished.droppedBytes⟩
        else { settled with entries := settled.entries ++ [⟨finished, reply, false⟩] }

/-- A text sink's decoder is flushed by an empty final write. -/
def finalWrite (state : DrainState config) : DrainState config :=
  if config.settings.isTextSink && !state.disabled then
    let (reply, sink) := config.sink.write state.sink [] 0 true
    (settleWrite { state with sink } reply).2
  else state

theorem finishLine_pending (limiter : EchoLineLimiter) (pending : Bool)
    (ending : List UInt8) (settings : LineSettings) :
    (finishLine { limiter with hasPendingCarriageReturn := pending } ending settings).1 =
      (finishLine limiter ending settings).1 := by
  have same : ∀ line finalization dropped passes,
      boundedPrefix { limiter with hasPendingCarriageReturn := pending } line finalization
          settings dropped passes =
        boundedPrefix limiter line finalization settings dropped passes := by
    intro line finalization dropped passes
    induction passes generalizing dropped with
    | zero => rfl
    | succ passes induction => simp only [boundedPrefix, induction]
  simp only [finishLine, finalizationOf, same]

variable (config) in
def drainMirror : LineMirror (DrainState config) where
  raised := DrainState.raised
  disabled := DrainState.disabled
  writeFinishedEchoLine := writeFinishedEchoLine
  finalWrite := finalWrite
  pending_irrelevant limiter pending ending state := by
    unfold writeFinishedEchoLine
    rw [finishLine_pending]

/-- The echo of a stream read in these chunks, up to its end. -/
def echo (sink : config.sink.State) (maxLineBytes : Nat) (chunks : List (List UInt8)) :
    DrainState config :=
  (drainMirror config).echoStream maxLineBytes (.initial config sink) chunks

/-! What one write adds. -/

@[simp] theorem emitEchoEvent_entries (state : DrainState config) (event : EchoEvent) :
    (emitEchoEvent state event).entries = state.entries := rfl

@[simp] theorem emitEchoEvent_events (state : DrainState config) (event : EchoEvent) :
    (emitEchoEvent state event).events = state.events ++ [event] := rfl

@[simp] theorem settleWrite_entries (state : DrainState config) (reply : WriteReply) :
    (settleWrite state reply).2.entries = state.entries := by
  cases reply with
  | saturated dropped =>
      simp only [settleWrite]
      split <;> rfl
  | brokenPipeError =>
      simp only [settleWrite]
      split <;> rfl
  | accepted => rfl
  | undelivered => rfl
  | unicodeEncodeError => rfl
  | raised => rfl

/-- Whether the drain takes a payload with this reply for written. -/
def WriteReply.wasWritten : WriteReply → Bool
  | .accepted => true
  | .undelivered => true
  | .saturated dropped => dropped == 0
  | _ => false

theorem settleWrite_fst (state : DrainState config) (reply : WriteReply) :
    (settleWrite state reply).1 = reply.wasWritten := by
  cases reply with
  | saturated dropped =>
      simp only [settleWrite, WriteReply.wasWritten]
      by_cases none : dropped = 0
      · simp [none]
      · simp [none]
  | brokenPipeError =>
      simp only [settleWrite]
      split <;> rfl
  | accepted => rfl
  | undelivered => rfl
  | unicodeEncodeError => rfl
  | raised => rfl

theorem writeFinishedEchoLine_entries {limiter : EchoLineLimiter} {ending : List UInt8}
    {finished : FinishedLine}
    (found : (finishLine limiter ending config.settings).1 = some finished)
    {state : DrainState config} (enabled : state.disabled = false) :
    ∃ reply, (writeFinishedEchoLine limiter ending state).entries =
      state.entries ++
        [⟨finished, reply, reply.wasWritten && finished.droppedBytes != 0⟩] := by
  simp only [writeFinishedEchoLine, found, enabled, Bool.false_eq_true, if_false,
    settleWrite_fst]
  refine ⟨(config.sink.write state.sink finished.payload finished.sourceBytes false).1, ?_⟩
  split
  next reports => simp [reports]
  next silent => simp [Bool.eq_false_iff.mpr silent]

/-- The line a source line is finished as. -/
def finishedLine (settings : LineSettings) (maxLineBytes : Nat)
    (line : List UInt8 × List UInt8) : Option FinishedLine :=
  (finishLine (fedLimiter maxLineBytes line.1 false) line.2 settings).1

/-- An entry is reported when its line lost bytes and was taken for written. -/
def EchoEntry.Marked (entry : EchoEntry) : Prop :=
  entry.reported = (entry.reply.wasWritten && entry.line.droppedBytes != 0)

/-! Every line can be finished, and a disabled echo stays as it is. -/

section Heeded

variable {config : DrainConfig}

theorem finishLine_isSome {settings : LineSettings} (heeded : settings.codec.Heeded)
    (limiter : EchoLineLimiter) (ending : List UInt8) :
    ∃ finished, (finishLine limiter ending settings).1 = some finished := by
  by_cases fits : limiter.sourceLineBytes + ending.length ≤ limiter.maxLineBytes
  · exact ⟨_, finishLine_of_fits fits settings⟩
  · obtain ⟨_, _, _, _, finished⟩ := finishLine_of_heeded fits ⟨settings, heeded⟩
    exact ⟨_, finished⟩

theorem writeFinishedEchoLine_of_disabled {state : DrainState config.toEchoDrain}
    (disabled : state.disabled = true) (limiter : EchoLineLimiter) (ending : List UInt8) :
    writeFinishedEchoLine limiter ending state = state := by
  obtain ⟨finished, found⟩ := finishLine_isSome config.heeded limiter ending
  simp only [writeFinishedEchoLine, found, if_pos disabled]

theorem finalWrite_of_disabled {state : DrainState config.toEchoDrain}
    (disabled : state.disabled = true) : finalWrite state = state := by
  simp [finalWrite, disabled]

theorem drain_settles : (drainMirror config.toEchoDrain).Settles id where
  write limiter ending state stopped running := by
    have disabled : state.disabled = true :=
      stopped.resolve_right (by simpa [drainMirror] using running)
    have same := writeFinishedEchoLine_of_disabled disabled limiter ending
    exact ⟨.inl (by simpa [drainMirror, same] using disabled), same⟩
  final stopped running :=
    finalWrite_of_disabled (stopped.resolve_right (by simpa [drainMirror] using running))

theorem echo_eq (sink : config.sink.State) (maxLineBytes : Nat)
    (chunks : List (List UInt8)) :
    echo sink maxLineBytes chunks =
      (drainMirror config.toEchoDrain).finish ((sourceLines [] chunks.flatten).foldl
        ((drainMirror config.toEchoDrain).mirrorLine maxLineBytes) (.initial config.toEchoDrain sink)) :=
  drain_settles.echoStream_view maxLineBytes _ chunks

theorem mirrorLine_entries (maxLineBytes : Nat) (state : DrainState config.toEchoDrain)
    (line : List UInt8 × List UInt8) :
    (drainMirror config.toEchoDrain).Stopped state ∧
        (drainMirror config.toEchoDrain).mirrorLine maxLineBytes state line = state ∨
      ∃ entry : EchoEntry, entry.Marked ∧
        finishedLine config.settings maxLineBytes line = some entry.line ∧
        ((drainMirror config.toEchoDrain).mirrorLine maxLineBytes state line).entries =
          state.entries ++ [entry] := by
  rw [LineMirror.mirrorLine]
  cases raised : (drainMirror config.toEchoDrain).raised state with
  | true => exact .inl ⟨.inr raised, if_pos rfl⟩
  | false =>
      rw [if_neg Bool.false_ne_true]
      cases disabled : state.disabled with
      | true => exact .inl ⟨.inl disabled, writeFinishedEchoLine_of_disabled disabled _ _⟩
      | false =>
          obtain ⟨finished, found⟩ := finishLine_isSome config.heeded
            (fedLimiter maxLineBytes line.1 false) line.2
          obtain ⟨reply, wrote⟩ := writeFinishedEchoLine_entries found disabled
          exact .inr ⟨⟨finished, reply, reply.wasWritten && finished.droppedBytes != 0⟩, rfl,
            found, wrote⟩

theorem foldl_mirrorLine_of_stopped (maxLineBytes : Nat) {state : DrainState config.toEchoDrain}
    (stopped : (drainMirror config.toEchoDrain).Stopped state) (lines : List (List UInt8 × List UInt8)) :
    lines.foldl ((drainMirror config.toEchoDrain).mirrorLine maxLineBytes) state = state := by
  induction lines with
  | nil => rfl
  | cons line lines induction =>
      have same : (drainMirror config.toEchoDrain).mirrorLine maxLineBytes state line = state :=
        (drain_settles.mirrorLine maxLineBytes stopped line).2
      rw [List.foldl_cons, same, induction]

/-- The lines of a stream are handed on in order, up to where the echo stopped. -/
structure HandsOn (settings : LineSettings) (maxLineBytes : Nat)
    (lines : List (List UInt8 × List UInt8)) (entries : List EchoEntry)
    (stopped : Prop) : Prop where
  marked : ∀ entry ∈ entries, entry.Marked
  inOrder : entries.map (fun entry => some entry.line) <+:
    lines.map (finishedLine settings maxLineBytes)
  whole : ¬ stopped → entries.map (fun entry => some entry.line) =
    lines.map (finishedLine settings maxLineBytes)

theorem foldl_mirrorLine_entries (maxLineBytes : Nat) (state : DrainState config.toEchoDrain)
    (lines : List (List UInt8 × List UInt8)) :
    ∃ more, (lines.foldl ((drainMirror config.toEchoDrain).mirrorLine maxLineBytes) state).entries =
        state.entries ++ more ∧
      HandsOn config.settings maxLineBytes lines more ((drainMirror config.toEchoDrain).Stopped
        (lines.foldl ((drainMirror config.toEchoDrain).mirrorLine maxLineBytes) state)) := by
  induction lines generalizing state with
  | nil => exact ⟨[], (List.append_nil _).symm, nofun, List.prefix_rfl, fun _ => rfl⟩
  | cons line lines induction =>
      rw [List.foldl_cons]
      rcases mirrorLine_entries maxLineBytes state line with ⟨stopped, same⟩ | written
      · rw [same, foldl_mirrorLine_of_stopped maxLineBytes stopped]
        exact ⟨[], (List.append_nil _).symm, nofun, List.nil_prefix, fun running =>
          absurd stopped running⟩
      · obtain ⟨entry, marked, finished, wrote⟩ := written
        obtain ⟨more, rest, hands⟩ :=
          induction ((drainMirror config.toEchoDrain).mirrorLine maxLineBytes state line)
        refine ⟨entry :: more, by rw [rest, wrote, List.append_assoc]; rfl, ?_, ?_, ?_⟩
        · exact List.forall_mem_cons.mpr ⟨marked, hands.marked⟩
        · rw [List.map_cons, List.map_cons, finished]
          exact List.cons_prefix_cons.mpr ⟨rfl, hands.inOrder⟩
        · intro running
          rw [List.map_cons, List.map_cons, finished, hands.whole running]

theorem finish_entries (state : DrainState config.toEchoDrain) :
    ((drainMirror config.toEchoDrain).finish state).entries = state.entries := by
  unfold LineMirror.finish drainMirror finalWrite
  dsimp only
  split
  next => rfl
  next =>
    split
    next => exact settleWrite_entries _ _
    next => rfl

theorem finish_of_stopped {state : DrainState config.toEchoDrain}
    (stopped : (drainMirror config.toEchoDrain).Stopped state) :
    (drainMirror config.toEchoDrain).finish state = state :=
  drain_settles.finish stopped

/-- Whatever the chunks, the sink is handed the finished lines of the stream. -/
theorem echo_handsOn (sink : config.sink.State) (maxLineBytes : Nat)
    (chunks : List (List UInt8)) :
    HandsOn config.settings maxLineBytes (sourceLines [] chunks.flatten)
      (echo sink maxLineBytes chunks).entries
      ((drainMirror config.toEchoDrain).Stopped (echo sink maxLineBytes chunks)) := by
  obtain ⟨more, entries, hands⟩ := foldl_mirrorLine_entries maxLineBytes
    (.initial config.toEchoDrain sink) (sourceLines [] chunks.flatten)
  rw [echo_eq, finish_entries, entries]
  refine { hands with whole := fun running => hands.whole fun stopped => running ?_ }
  rwa [finish_of_stopped stopped]

end Heeded

end Drain

/-! The lines of a stream. -/

/-- A stream cut into its lines: a carriage return before a line feed is part of the
ending, any other one is part of the line. -/
structure FramedAs (stream : List UInt8) (lines : List (List UInt8 × List UInt8)) :
    Prop where
  whole : (lines.flatMap fun line => line.1 ++ line.2) = stream
  lineFeedFree : ∀ line ∈ lines, lineFeed ∉ line.1
  terminated : ∀ line ∈ lines.dropLast, Terminated line
  last : ∀ line ∈ lines, Terminated line ∨ line.2 = [] ∧ line.1 ≠ []
  returnless : ∀ line ∈ lines, line.2 = [lineFeed] →
    line.1.getLast? ≠ some carriageReturn

theorem splitEnding_terminated (body : List UInt8) : Terminated (splitEnding body) := by
  unfold splitEnding
  split
  next => exact .inr rfl
  next => exact .inl rfl

theorem splitEnding_returnless (body : List UInt8)
    (feed : (splitEnding body).2 = [lineFeed]) :
    (splitEnding body).1.getLast? ≠ some carriageReturn := by
  unfold splitEnding at feed ⊢
  split
  next isReturn =>
    rw [if_pos isReturn] at feed
    cases feed
  next other => exact other

theorem splitEnding_lineFeedFree {body : List UInt8} (free : lineFeed ∉ body) :
    lineFeed ∉ (splitEnding body).1 := by
  unfold splitEnding
  split
  next => exact fun member => free (List.mem_of_mem_dropLast member)
  next => exact free

theorem sourceLines_framed {body : List UInt8} (free : lineFeed ∉ body)
    (bytes : List UInt8) : FramedAs (body ++ bytes) (sourceLines body bytes) := by
  induction bytes generalizing body with
  | nil =>
      by_cases empty : body = []
      · subst empty
        exact ⟨rfl, nofun, nofun, nofun, nofun⟩
      · rw [sourceLines_nil empty]
        refine ⟨by simp, ?_, by simp, ?_, by simp⟩
        · simpa using free
        · simpa using .inr empty
  | cons byte bytes induction =>
      by_cases isFeed : byte = lineFeed
      · subst isFeed
        have rest := @induction [] nofun
        rw [sourceLines_lineFeed]
        refine ⟨?_, ?_, ?_, ?_, ?_⟩
        · rw [List.flatMap_cons, rest.whole, splitEnding_whole]
          simp
        · exact List.forall_mem_cons.mpr ⟨splitEnding_lineFeedFree free, rest.lineFeedFree⟩
        · have ended := sourceLines_terminated body (lineFeed :: bytes)
          rwa [sourceLines_lineFeed] at ended
        · exact List.forall_mem_cons.mpr ⟨.inl (splitEnding_terminated body), rest.last⟩
        · exact List.forall_mem_cons.mpr ⟨splitEnding_returnless body, rest.returnless⟩
      · have longer : lineFeed ∉ body ++ [byte] := by
          simp [free, Ne.symm isFeed]
        have framed := induction longer
        rw [sourceLines_plain isFeed]
        rwa [List.append_assoc] at framed

theorem sourceLines_line {line : List UInt8 × List UInt8} (free : lineFeed ∉ line.1)
    (terminated : Terminated line)
    (returnless : line.2 = [lineFeed] → line.1.getLast? ≠ some carriageReturn)
    (rest : List UInt8) :
    sourceLines [] (line.1 ++ line.2 ++ rest) = line :: sourceLines [] rest := by
  obtain ⟨body, ending⟩ := line
  rw [List.append_assoc, sourceLines_append_of_not_mem free, List.nil_append]
  rcases terminated with feed | both
  · have feed : ending = [lineFeed] := feed
    subst feed
    rw [List.singleton_append, sourceLines_lineFeed, splitEnding, if_neg (returnless rfl)]
  · have both : ending = [carriageReturn, lineFeed] := both
    subst both
    rw [List.cons_append, sourceLines_plain (by decide), List.singleton_append,
      sourceLines_lineFeed, splitEnding, if_pos (List.getLast?_concat ..),
      List.dropLast_concat]

/-- There is one way to cut a stream into its lines. -/
theorem FramedAs.unique {stream : List UInt8} {lines : List (List UInt8 × List UInt8)}
    (framed : FramedAs stream lines) : lines = sourceLines [] stream := by
  induction lines generalizing stream with
  | nil =>
      obtain rfl := framed.whole
      rfl
  | cons line lines induction =>
      have free := framed.lineFeedFree line List.mem_cons_self
      have returnless := framed.returnless line List.mem_cons_self
      have whole := framed.whole
      rw [List.flatMap_cons] at whole
      by_cases terminated : Terminated line
      · have rest : FramedAs (lines.flatMap fun line => line.1 ++ line.2) lines := by
          refine ⟨rfl, fun line member => framed.lineFeedFree line (.tail _ member), ?_,
            fun line member => framed.last line (.tail _ member),
            fun line member => framed.returnless line (.tail _ member)⟩
          intro other member
          cases lines with
          | nil => cases member
          | cons next lines =>
              exact framed.terminated other
                (List.dropLast_cons_cons ▸ List.mem_cons_of_mem _ member)
        rw [← whole, sourceLines_line free terminated returnless, ← induction rest]
      · have single : lines = [] := by
          cases lines with
          | nil => rfl
          | cons next lines =>
              exact absurd (framed.terminated line
                (List.dropLast_cons_cons ▸ List.mem_cons_self)) terminated
        obtain ⟨unended, nonempty⟩ :=
          (framed.last line List.mem_cons_self).resolve_left terminated
        subst single
        obtain ⟨body, ending⟩ := line
        have unended : ending = [] := unended
        subst unended
        rw [← whole, List.flatMap_nil, List.append_nil, List.append_nil]
        have cut := sourceLines_append_of_not_mem free [] []
        rw [List.append_nil, List.nil_append, sourceLines_nil nonempty] at cut
        exact cut.symm

theorem finishedLine_sourceBytes {settings : LineSettings} {maxLineBytes : Nat}
    {line : List UInt8 × List UInt8} {finished : FinishedLine}
    (found : finishedLine settings maxLineBytes line = some finished) :
    finished.sourceBytes = (line.1 ++ line.2).length := by
  rw [List.length_append]
  unfold finishedLine at found
  by_cases fits : (fedLimiter maxLineBytes line.1 false).sourceLineBytes + line.2.length ≤
      (fedLimiter maxLineBytes line.1 false).maxLineBytes
  · rw [finishLine_of_fits fits] at found
    cases found
    rfl
  · obtain ⟨_, _, _, _, exceeds⟩ := finishLine_of_exceeds fits settings
    rw [exceeds] at found
    split at found
    next =>
      cases found
      rfl
    next => cases found

theorem sum_sourceBytes {settings : LineSettings} {maxLineBytes : Nat}
    {entries : List EchoEntry} {lines : List (List UInt8 × List UInt8)}
    (handed : entries.map (fun entry => some entry.line) =
      lines.map (finishedLine settings maxLineBytes)) :
    (entries.map fun entry => entry.line.sourceBytes).sum =
      (lines.flatMap fun line => line.1 ++ line.2).length := by
  induction lines generalizing entries with
  | nil =>
      obtain rfl := List.map_eq_nil_iff.mp handed
      rfl
  | cons line lines induction =>
      cases entries with
      | nil => cases handed
      | cons entry entries =>
          rw [List.map_cons, List.map_cons, List.cons.injEq] at handed
          rw [List.map_cons, List.sum_cons, List.flatMap_cons, List.length_append,
            finishedLine_sourceBytes handed.1.symm, induction handed.2]

/-- The echo of a stream is that of its lines, one way or another cut into chunks: the
sink is handed each line's finished form in order, until it stops the echo, and their
source bytes are those of the stream. -/
theorem echo_independent_of_chunking (config : DrainConfig) (sink : config.sink.State)
    (maxLineBytes : Nat) (chunks : List (List UInt8)) :
    (∀ others : List (List UInt8), others.flatten = chunks.flatten →
      echo sink maxLineBytes others = echo sink maxLineBytes chunks) ∧
    ∃ lines, FramedAs chunks.flatten lines ∧
      (∀ others, FramedAs chunks.flatten others → others = lines) ∧
      (echo sink maxLineBytes chunks).entries.map (fun entry => some entry.line) <+:
        lines.map (finishedLine config.settings maxLineBytes) ∧
      (¬ (drainMirror config.toEchoDrain).Stopped (echo sink maxLineBytes chunks) →
        (echo sink maxLineBytes chunks).entries.map (fun entry => some entry.line) =
            lines.map (finishedLine config.settings maxLineBytes) ∧
          ((echo sink maxLineBytes chunks).entries.map
            fun entry => entry.line.sourceBytes).sum = chunks.flatten.length) := by
  have hands := echo_handsOn sink maxLineBytes chunks
  have framed : FramedAs chunks.flatten (sourceLines [] chunks.flatten) :=
    @sourceLines_framed [] List.not_mem_nil chunks.flatten
  constructor
  · intro others same
    rw [echo_eq, echo_eq, same]
  · refine ⟨_, framed, fun others other => other.unique, hands.inOrder, ?_⟩
    intro running
    refine ⟨hands.whole running, ?_⟩
    rw [sum_sourceBytes (hands.whole running), framed.whole]

end Cuprum.BoundedEcho
