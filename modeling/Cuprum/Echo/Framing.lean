import Cuprum.Echo.Truncation

namespace Cuprum.Echo

universe u v

variable {σ : Type u} {ο : Type v}

/-- Hold a chunk-final carriage return until its line-ending role is known. -/
def prependPendingCarriageReturn (limiter : EchoLineLimiter) (chunk : List UInt8) :
    List UInt8 × EchoLineLimiter :=
  let data :=
    (if limiter.hasPendingCarriageReturn then [carriageReturn] else []) ++ chunk
  if data.getLast? = some carriageReturn then
    (data.dropLast, { limiter with hasPendingCarriageReturn := true })
  else (data, { limiter with hasPendingCarriageReturn := false })

def finishPendingCarriageReturn (limiter : EchoLineLimiter) : EchoLineLimiter :=
  if limiter.hasPendingCarriageReturn then
    { limiter.boundLine [carriageReturn] with hasPendingCarriageReturn := false }
  else limiter

/-- The lines of a stream, whose first line is begun by `body`. -/
def sourceLines (body bytes : List UInt8) : List (List UInt8 × List UInt8) :=
  (splitEchoSegments body bytes).map fun segment => (segment.1, segment.2.getD [])

/-- The limiter after accounting for these bytes of its current line. -/
def fedLimiter (maxLineBytes : Nat) (content : List UInt8) (pending : Bool) :
    EchoLineLimiter :=
  ⟨maxLineBytes, content.take maxLineBytes, content.length, pending⟩

/-- What becomes of the lines an echo frames.  Finishing a line looks at its bytes
and its ending only. -/
structure LineMirror (σ : Type u) where
  raised : σ → Bool
  disabled : σ → Bool
  writeFinishedEchoLine : EchoLineLimiter → List UInt8 → σ → σ
  finalWrite : σ → σ
  pending_irrelevant : ∀ (limiter : EchoLineLimiter) (pending : Bool) ending channel,
    writeFinishedEchoLine { limiter with hasPendingCarriageReturn := pending } ending
        channel =
      writeFinishedEchoLine limiter ending channel

structure Framing (σ : Type u) where
  limiter : EchoLineLimiter
  channel : σ

namespace LineMirror

variable (mirror : LineMirror σ)

def echoBoundedSegment (framing : Framing σ)
    (segment : List UInt8 × Option (List UInt8)) : Framing σ :=
  if mirror.raised framing.channel then framing
  else
    let limiter := framing.limiter.boundLine segment.1
    match segment.2 with
    | none => ⟨limiter, framing.channel⟩
    | some ending =>
        ⟨{ limiter with line := [], sourceLineBytes := 0 },
          mirror.writeFinishedEchoLine limiter ending framing.channel⟩

def echoChunk (framing : Framing σ) (chunk : List UInt8) : Framing σ :=
  if mirror.disabled framing.channel || mirror.raised framing.channel then framing
  else
    let (data, limiter) := prependPendingCarriageReturn framing.limiter chunk
    (splitEchoSegments [] data).foldl mirror.echoBoundedSegment
      ⟨limiter, framing.channel⟩

def finish (channel : σ) : σ :=
  if mirror.raised channel then channel else mirror.finalWrite channel

def finishLastLine (limiter : EchoLineLimiter) (channel : σ) : σ :=
  if 0 < limiter.sourceLineBytes then mirror.writeFinishedEchoLine limiter [] channel
  else channel

/-- What the channel holds once the last line and the decoder are flushed. -/
def flushEchoDecoder (framing : Framing σ) : σ :=
  if mirror.raised framing.channel then framing.channel
  else
    mirror.finish
      (mirror.finishLastLine (finishPendingCarriageReturn framing.limiter)
        framing.channel)

def echoStream (maxLineBytes : Nat) (channel : σ) (chunks : List (List UInt8)) : σ :=
  mirror.flushEchoDecoder
    (chunks.foldl mirror.echoChunk ⟨.initial maxLineBytes, channel⟩)

def mirrorLine (maxLineBytes : Nat) (channel : σ) (line : List UInt8 × List UInt8) : σ :=
  if mirror.raised channel then channel
  else mirror.writeFinishedEchoLine (fedLimiter maxLineBytes line.1 false) line.2 channel

end LineMirror

/-! A stream is the sequence of its lines, whatever precedes it. -/

theorem sourceLines_plain {byte : UInt8} (plain : byte ≠ lineFeed)
    (body rest : List UInt8) :
    sourceLines body (byte :: rest) = sourceLines (body ++ [byte]) rest := by
  rw [sourceLines, splitEchoSegments, if_neg plain]
  rfl

def splitEnding (body : List UInt8) : List UInt8 × List UInt8 :=
  if body.getLast? = some carriageReturn then
    (body.dropLast, [carriageReturn, lineFeed])
  else (body, [lineFeed])

theorem sourceLines_lineFeed (body rest : List UInt8) :
    sourceLines body (lineFeed :: rest) = splitEnding body :: sourceLines [] rest := by
  rw [sourceLines, splitEchoSegments, if_pos rfl, List.map_cons]
  unfold splitEnding
  split <;> rfl

theorem sourceLines_nil {body : List UInt8} (nonempty : body ≠ []) :
    sourceLines body [] = [(body, [])] := by
  rw [sourceLines, splitEchoSegments, if_neg nonempty]
  rfl

theorem splitEnding_whole (body : List UInt8) :
    (splitEnding body).1 ++ (splitEnding body).2 = body ++ [lineFeed] := by
  unfold splitEnding
  split
  next last =>
    have whole := List.dropLast_append_getLast? _ last
    calc body.dropLast ++ [carriageReturn, lineFeed]
        = (body.dropLast ++ [carriageReturn]) ++ [lineFeed] := by simp
      _ = body ++ [lineFeed] := by rw [whole]
  next => rfl

def Terminated (line : List UInt8 × List UInt8) : Prop :=
  line.2 = [lineFeed] ∨ line.2 = [carriageReturn, lineFeed]

theorem sourceLines_terminated (body bytes : List UInt8) :
    ∀ line ∈ (sourceLines body bytes).dropLast, Terminated line := by
  induction bytes generalizing body with
  | nil =>
      rw [sourceLines, splitEchoSegments]
      split <;> simp
  | cons byte bytes induction =>
      by_cases isFeed : byte = lineFeed
      · subst isFeed
        rw [sourceLines_lineFeed]
        have first : Terminated (splitEnding body) := by
          unfold splitEnding
          split
          next => exact .inr rfl
          next => exact .inl rfl
        have later := induction []
        cases after : sourceLines [] bytes with
        | nil => simp
        | cons next lines =>
            rw [after] at later
            rw [List.dropLast_cons_cons, List.forall_mem_cons]
            exact ⟨first, later⟩
      · rw [sourceLines_plain isFeed]
        exact induction _

theorem sourceLines_append_of_not_mem {front : List UInt8}
    (free : lineFeed ∉ front) (body rest : List UInt8) :
    sourceLines body (front ++ rest) = sourceLines (body ++ front) rest := by
  induction front generalizing body with
  | nil => rw [List.nil_append, List.append_nil]
  | cons byte front induction =>
      rw [List.mem_cons, not_or] at free
      rw [List.cons_append, sourceLines_plain (Ne.symm free.1), induction free.2,
        List.append_assoc, List.singleton_append]

theorem boundLine_fed (maxLineBytes : Nat) (content segment : List UInt8)
    (pending : Bool) :
    (fedLimiter maxLineBytes content pending).boundLine segment =
      fedLimiter maxLineBytes (content ++ segment) pending := by
  have room : maxLineBytes - min maxLineBytes content.length =
      maxLineBytes - content.length := by
    omega
  simp only [EchoLineLimiter.boundLine, fedLimiter, List.length_append,
    List.length_take, room, List.take_append]
  split
  next => rfl
  next full =>
    rw [Nat.eq_zero_of_not_pos full, List.take_zero, List.append_nil]

/-- The carriage return kept back between two chunks. -/
def keptReturn (pending : Bool) : List UInt8 :=
  if pending then [carriageReturn] else []

theorem prependPendingCarriageReturn_fed (maxLineBytes : Nat)
    (content chunk : List UInt8) (before : Bool) :
    ∃ data pending,
      prependPendingCarriageReturn (fedLimiter maxLineBytes content before) chunk =
        (data, fedLimiter maxLineBytes content pending) ∧
      keptReturn before ++ chunk = data ++ keptReturn pending ∧
      (pending = false → data.getLast? ≠ some carriageReturn) := by
  by_cases last : (keptReturn before ++ chunk).getLast? = some carriageReturn
  · refine ⟨(keptReturn before ++ chunk).dropLast, true, if_pos last, ?_, nofun⟩
    exact (List.dropLast_append_getLast? _ last).symm
  · refine ⟨keptReturn before ++ chunk, false, if_neg last, ?_, fun _ => last⟩
    exact (List.append_nil _).symm

theorem getLast?_of_suffix {left content data : List UInt8}
    (isSuffix : left <:+ content ++ data)
    (hcontent : data = [] → content.getLast? ≠ some carriageReturn)
    (hdata : data.getLast? ≠ some carriageReturn) :
    left.getLast? ≠ some carriageReturn := by
  intro last
  have whole : (content ++ data).getLast? = some carriageReturn := by
    obtain ⟨before, equal⟩ := isSuffix
    rw [← equal, List.getLast?_append, last]
    rfl
  rw [List.getLast?_append] at whole
  cases found : data.getLast? with
  | none =>
      rw [found] at whole
      exact hcontent (List.getLast?_eq_none_iff.mp found) (by simpa using whole)
  | some byte =>
      rw [found] at whole
      exact hdata (found.trans (by simpa using whole))

theorem sourceLines_keptReturn (content : List UInt8) (pending : Bool) :
    sourceLines content (keptReturn pending) =
      sourceLines (content ++ keptReturn pending) [] := by
  cases pending with
  | false => exact congrArg (sourceLines · []) (List.append_nil content).symm
  | true => exact sourceLines_plain (by decide) content []

theorem finishPendingCarriageReturn_fed (maxLineBytes : Nat)
    (content : List UInt8) (pending : Bool) :
    finishPendingCarriageReturn (fedLimiter maxLineBytes content pending) =
      fedLimiter maxLineBytes (content ++ keptReturn pending) false := by
  cases pending with
  | false =>
      exact congrArg (fedLimiter maxLineBytes · false) (List.append_nil content).symm
  | true =>
      have returned := boundLine_fed maxLineBytes content [carriageReturn] true
      exact congrArg (fun limiter : EchoLineLimiter =>
        { limiter with hasPendingCarriageReturn := false }) returned

/-! Line by line: the echo of a stream is the echo of its lines in order, however
it was chunked. -/

namespace LineMirror

variable {mirror : LineMirror σ}

theorem foldl_mirrorLine_raised {channel : σ} (raised : mirror.raised channel = true)
    (maxLineBytes : Nat) (lines : List (List UInt8 × List UInt8)) :
    lines.foldl (mirror.mirrorLine maxLineBytes) channel = channel := by
  induction lines with
  | nil => rfl
  | cons line lines induction =>
      rw [List.foldl_cons, mirrorLine, if_pos raised, induction]

theorem foldl_segment_raised {framing : Framing σ}
    (raised : mirror.raised framing.channel = true)
    (segments : List (List UInt8 × Option (List UInt8))) :
    segments.foldl mirror.echoBoundedSegment framing = framing := by
  induction segments with
  | nil => rfl
  | cons segment segments induction =>
      rw [List.foldl_cons, echoBoundedSegment, if_pos raised, induction]

theorem echoBoundedSegment_ended (maxLineBytes : Nat) (content segment : List UInt8)
    (pending : Bool) {channel : σ} (running : mirror.raised channel = false)
    (ending : List UInt8) :
    mirror.echoBoundedSegment ⟨fedLimiter maxLineBytes content pending, channel⟩
        (segment, some ending) =
      ⟨fedLimiter maxLineBytes [] pending,
        mirror.mirrorLine maxLineBytes channel (content ++ segment, ending)⟩ := by
  rw [echoBoundedSegment, if_neg (by simp [running]), mirrorLine,
    if_neg (by simp [running])]
  dsimp only
  rw [boundLine_fed, ← mirror.pending_irrelevant
    (fedLimiter maxLineBytes (content ++ segment) false) pending]
  simp [fedLimiter]

theorem echoBoundedSegment_open (maxLineBytes : Nat) (content segment : List UInt8)
    (pending : Bool) {channel : σ} (running : mirror.raised channel = false) :
    mirror.echoBoundedSegment ⟨fedLimiter maxLineBytes content pending, channel⟩
        (segment, none) =
      ⟨fedLimiter maxLineBytes (content ++ segment) pending, channel⟩ := by
  rw [echoBoundedSegment, if_neg (by simp [running])]
  simp only [boundLine_fed]

/-- Where a chunk leaves the echo: the accounted part of an unfinished line, and
the channel after every line finished in it. -/
structure Continues (mirror : LineMirror σ) (maxLineBytes : Nat) (pending : Bool)
    (channel : σ) (body data : List UInt8) (after : Framing σ)
    (content : List UInt8) : Prop where
  isSuffix : content <:+ body ++ data
  limiter : mirror.raised after.channel = true ∨
    after.limiter = fedLimiter maxLineBytes content pending
  lines : ∀ rest,
    (sourceLines body (data ++ rest)).foldl (mirror.mirrorLine maxLineBytes) channel =
      (sourceLines content rest).foldl (mirror.mirrorLine maxLineBytes) after.channel

theorem continues_of_raised {maxLineBytes : Nat} {pending : Bool}
    {limiter : EchoLineLimiter} {channel : σ} (raised : mirror.raised channel = true)
    (body data : List UInt8) :
    Continues mirror maxLineBytes pending channel body data ⟨limiter, channel⟩ [] := by
  refine ⟨List.nil_suffix, .inl raised, fun rest => ?_⟩
  rw [foldl_mirrorLine_raised raised, foldl_mirrorLine_raised raised]

/-- The line ending of a chunk is that of the whole line, unless the carriage
return was already accounted for. -/
theorem echoBoundedSegment_splitEnding (maxLineBytes : Nat)
    (content body : List UInt8) (pending : Bool) {channel : σ}
    (running : mirror.raised channel = false)
    (apart : body = [] → content.getLast? ≠ some carriageReturn) :
    mirror.echoBoundedSegment ⟨fedLimiter maxLineBytes content pending, channel⟩
        (if body.getLast? = some carriageReturn then
          (body.dropLast, some [carriageReturn, lineFeed])
        else (body, some [lineFeed])) =
      ⟨fedLimiter maxLineBytes [] pending,
        mirror.mirrorLine maxLineBytes channel (splitEnding (content ++ body))⟩ := by
  have last : (content ++ body).getLast? = some carriageReturn ↔
      body.getLast? = some carriageReturn := by
    rcases List.eq_nil_or_concat body with rfl | ⟨front, byte, rfl⟩
    · simpa using apart rfl
    · simp
  by_cases isReturn : body.getLast? = some carriageReturn
  · have nonempty : body ≠ [] := by
      intro empty
      simp [empty] at isReturn
    rw [if_pos isReturn, echoBoundedSegment_ended _ _ _ _ running, splitEnding,
      if_pos (last.mpr isReturn), List.dropLast_append_of_ne_nil nonempty]
  · rw [if_neg isReturn, echoBoundedSegment_ended _ _ _ _ running, splitEnding,
      if_neg (mt last.mp isReturn)]

theorem segments_continue (mirror : LineMirror σ) (maxLineBytes : Nat) (pending : Bool)
    (channel : σ) (content body data : List UInt8)
    (apart : body = [] → content.getLast? = some carriageReturn →
      data.head? ≠ some lineFeed) :
    ∃ left, Continues mirror maxLineBytes pending channel (content ++ body) data
      ((splitEchoSegments body data).foldl mirror.echoBoundedSegment
        ⟨fedLimiter maxLineBytes content pending, channel⟩) left := by
  induction data generalizing body content channel with
  | nil =>
      cases raised : mirror.raised channel with
      | true =>
          rw [foldl_segment_raised raised]
          exact ⟨[], continues_of_raised raised _ _⟩
      | false =>
          refine ⟨content ++ body, ?_⟩
          rw [splitEchoSegments]
          split
          next empty =>
            subst empty
            exact ⟨by simp, .inr (by simp), by simp⟩
          next =>
            rw [List.foldl_cons, List.foldl_nil, echoBoundedSegment_open _ _ _ _ raised]
            exact ⟨by simp, .inr rfl, by simp⟩
  | cons byte data induction =>
      cases raised : mirror.raised channel with
      | true =>
          rw [foldl_segment_raised raised]
          exact ⟨[], continues_of_raised raised _ _⟩
      | false =>
          by_cases isFeed : byte = lineFeed
          · subst isFeed
            rw [splitEchoSegments, if_pos rfl, List.foldl_cons,
              echoBoundedSegment_splitEnding _ _ _ _ raised
                (fun empty last => apart empty last rfl)]
            obtain ⟨left, continued⟩ := induction
              (mirror.mirrorLine maxLineBytes channel (splitEnding (content ++ body)))
              [] [] (by simp)
            refine ⟨left, ?_, continued.limiter, fun rest => ?_⟩
            · exact continued.isSuffix.trans
                (List.suffix_append_of_suffix (List.suffix_cons _ _))
            · rw [List.cons_append, sourceLines_lineFeed, List.foldl_cons]
              exact continued.lines rest
          · rw [splitEchoSegments, if_neg isFeed]
            obtain ⟨left, continued⟩ := induction channel content (body ++ [byte])
              (by simp)
            refine ⟨left, ?_, continued.limiter, fun rest => ?_⟩
            · simpa using continued.isSuffix
            · rw [List.cons_append, sourceLines_plain isFeed, List.append_assoc]
              exact continued.lines rest

def Stopped (mirror : LineMirror σ) (channel : σ) : Prop :=
  mirror.disabled channel = true ∨ mirror.raised channel = true

/-- A view of the channel that nothing changes once the echo has stopped. -/
structure Settles (mirror : LineMirror σ) (view : σ → ο) : Prop where
  write : ∀ limiter ending {channel}, mirror.Stopped channel →
    mirror.raised channel = false →
    mirror.Stopped (mirror.writeFinishedEchoLine limiter ending channel) ∧
      view (mirror.writeFinishedEchoLine limiter ending channel) = view channel
  final : ∀ {channel}, mirror.Stopped channel → mirror.raised channel = false →
    view (mirror.finalWrite channel) = view channel

section Settled

variable {view : σ → ο} (settles : mirror.Settles view)
include settles

theorem Settles.mirrorLine (maxLineBytes : Nat) {channel : σ}
    (stopped : mirror.Stopped channel) (line : List UInt8 × List UInt8) :
    mirror.Stopped (mirror.mirrorLine maxLineBytes channel line) ∧
      view (mirror.mirrorLine maxLineBytes channel line) = view channel := by
  rw [LineMirror.mirrorLine]
  split
  next => exact ⟨stopped, rfl⟩
  next running => exact settles.write _ _ stopped (by simpa using running)

theorem Settles.finish {channel : σ} (stopped : mirror.Stopped channel) :
    view (mirror.finish channel) = view channel := by
  rw [LineMirror.finish]
  split
  next => rfl
  next running => exact settles.final stopped (by simpa using running)

/-- Nothing is seen of the lines after the echo has stopped. -/
theorem Settles.foldl_mirrorLine (maxLineBytes : Nat) {channel : σ}
    (stopped : mirror.Stopped channel) (lines : List (List UInt8 × List UInt8)) :
    view (mirror.finish (lines.foldl (mirror.mirrorLine maxLineBytes) channel)) =
      view channel := by
  induction lines generalizing channel with
  | nil => exact settles.finish stopped
  | cons line lines induction =>
      obtain ⟨still, same⟩ := settles.mirrorLine maxLineBytes stopped line
      rw [List.foldl_cons, induction still, same]

end Settled

/-- What is seen once the rest of the stream has been read. -/
def owed (mirror : LineMirror σ) (view : σ → ο) (maxLineBytes : Nat)
    (content : List UInt8) (framing : Framing σ) (rest : List UInt8) : ο :=
  view (mirror.finish ((sourceLines content
    (keptReturn framing.limiter.hasPendingCarriageReturn ++ rest)).foldl
      (mirror.mirrorLine maxLineBytes) framing.channel))

/-- The limiter holds the bytes of the unfinished line, but for a carriage return
kept back. -/
def Feeds (mirror : LineMirror σ) (maxLineBytes : Nat) (content : List UInt8)
    (framing : Framing σ) : Prop :=
  mirror.Stopped framing.channel ∨
    ∃ pending, framing.limiter = fedLimiter maxLineBytes content pending ∧
      (pending = false → content.getLast? ≠ some carriageReturn)

theorem echoChunk_of_stopped {framing : Framing σ}
    (stopped : mirror.Stopped framing.channel) (chunk : List UInt8) :
    mirror.echoChunk framing chunk = framing := by
  unfold echoChunk
  rcases stopped with disabled | raised
  · simp [disabled]
  · simp [raised]

theorem finishLastLine_fed (maxLineBytes : Nat) (content : List UInt8) {channel : σ}
    (running : mirror.raised channel = false) :
    mirror.finishLastLine (fedLimiter maxLineBytes content false) channel =
      (sourceLines content []).foldl (mirror.mirrorLine maxLineBytes) channel := by
  by_cases empty : content = []
  · subst empty
    rfl
  · have positive : 0 < (fedLimiter maxLineBytes content false).sourceLineBytes :=
      List.length_pos_iff.mpr empty
    rw [finishLastLine, if_pos positive, sourceLines_nil empty, List.foldl_cons,
      List.foldl_nil, LineMirror.mirrorLine, if_neg (by simp [running])]

section Settled

variable {view : σ → ο} (settles : mirror.Settles view)
include settles

theorem Settles.owed_of_stopped (maxLineBytes : Nat) (content : List UInt8)
    {framing : Framing σ} (stopped : mirror.Stopped framing.channel)
    (rest : List UInt8) :
    mirror.owed view maxLineBytes content framing rest = view framing.channel :=
  settles.foldl_mirrorLine maxLineBytes stopped _

/-- A chunk is accounted for whole: what the stream owes before it and what it
owes after it are the same. -/
theorem Settles.echoChunk_owed (maxLineBytes : Nat) {content : List UInt8}
    {framing : Framing σ} (feeds : mirror.Feeds maxLineBytes content framing)
    (chunk : List UInt8) :
    ∃ left, mirror.Feeds maxLineBytes left (mirror.echoChunk framing chunk) ∧
      ∀ rest, mirror.owed view maxLineBytes content framing (chunk ++ rest) =
        mirror.owed view maxLineBytes left (mirror.echoChunk framing chunk) rest := by
  by_cases stopped : mirror.Stopped framing.channel
  · rw [echoChunk_of_stopped stopped]
    refine ⟨content, feeds, fun rest => ?_⟩
    rw [settles.owed_of_stopped _ _ stopped, settles.owed_of_stopped _ _ stopped]
  obtain ⟨limiter, channel⟩ := framing
  obtain ⟨before, rfl, apart⟩ := feeds.resolve_left stopped
  obtain ⟨data, pending, prepended, split, last⟩ :=
    prependPendingCarriageReturn_fed maxLineBytes content chunk before
  have running : (mirror.disabled channel || mirror.raised channel) = false := by
    simpa [Stopped] using stopped
  have fresh : content.getLast? = some carriageReturn →
      data.head? ≠ some lineFeed := by
    intro isReturn feed
    cases before with
    | false => exact apart rfl isReturn
    | true =>
        cases data with
        | nil => cases feed
        | cons byte data => cases (congrArg List.head? split).trans feed
  obtain ⟨left, continued⟩ := mirror.segments_continue maxLineBytes pending channel
    content [] data (fun _ => fresh)
  rw [List.append_nil] at continued
  simp only [echoChunk, running, Bool.false_eq_true, if_false, prepended]
  generalize (splitEchoSegments [] data).foldl mirror.echoBoundedSegment
    ⟨fedLimiter maxLineBytes content pending, channel⟩ = next at continued ⊢
  have ahead : ∀ rest, mirror.owed view maxLineBytes content
      ⟨fedLimiter maxLineBytes content before, channel⟩ (chunk ++ rest) =
        view (mirror.finish ((sourceLines left (keptReturn pending ++ rest)).foldl
          (mirror.mirrorLine maxLineBytes) next.channel)) := by
    intro rest
    rw [← continued.lines, ← List.append_assoc, ← split, List.append_assoc]
    rfl
  refine ⟨left, ?_, fun rest => (ahead rest).trans ?_⟩
  · refine continued.limiter.imp .inr fun limiter => ⟨pending, limiter, ?_⟩
    intro none
    refine getLast?_of_suffix continued.isSuffix (fun empty => ?_) (last none)
    subst empty none
    cases before with
    | false => exact apart rfl
    | true => simp [keptReturn] at split
  · rcases continued.limiter with raised | limiter
    · rw [settles.foldl_mirrorLine maxLineBytes (.inr raised),
        settles.owed_of_stopped _ _ (.inr raised)]
    · rw [owed, limiter]
      rfl

theorem Settles.foldl_echoChunk_owed (maxLineBytes : Nat) {content : List UInt8}
    {framing : Framing σ} (feeds : mirror.Feeds maxLineBytes content framing)
    (chunks : List (List UInt8)) :
    ∃ left, mirror.Feeds maxLineBytes left (chunks.foldl mirror.echoChunk framing) ∧
      mirror.owed view maxLineBytes content framing chunks.flatten =
        mirror.owed view maxLineBytes left (chunks.foldl mirror.echoChunk framing)
          [] := by
  induction chunks generalizing content framing with
  | nil => exact ⟨content, feeds, rfl⟩
  | cons chunk chunks induction =>
      obtain ⟨middle, fed, first⟩ := settles.echoChunk_owed maxLineBytes feeds chunk
      obtain ⟨left, last, rest⟩ := induction fed
      exact ⟨left, last, (first chunks.flatten).trans rest⟩

/-- At end of stream the unfinished line is finished without an ending. -/
theorem Settles.flushEchoDecoder_owed (maxLineBytes : Nat) {content : List UInt8}
    {framing : Framing σ} (feeds : mirror.Feeds maxLineBytes content framing) :
    view (mirror.flushEchoDecoder framing) =
      mirror.owed view maxLineBytes content framing [] := by
  cases raised : mirror.raised framing.channel with
  | true =>
      rw [flushEchoDecoder, if_pos raised, settles.owed_of_stopped _ _ (.inr raised)]
  | false =>
      rw [flushEchoDecoder, if_neg (by simp [raised])]
      cases disabled : mirror.disabled framing.channel with
      | true =>
          rw [settles.owed_of_stopped _ _ (.inl disabled), finishLastLine]
          split
          next =>
            obtain ⟨still, same⟩ := settles.write
              (finishPendingCarriageReturn framing.limiter) [] (.inl disabled) raised
            rw [settles.finish still, same]
          next => exact settles.finish (.inl disabled)
      | false =>
          have running : ¬ mirror.Stopped framing.channel := by
            simp [Stopped, raised, disabled]
          obtain ⟨limiter, channel⟩ := framing
          obtain ⟨pending, rfl, _⟩ := feeds.resolve_left running
          rw [finishPendingCarriageReturn_fed, finishLastLine_fed _ _ raised, owed,
            List.append_nil]
          exact congrArg (fun lines => view (mirror.finish
            (lines.foldl (mirror.mirrorLine maxLineBytes) channel)))
            (sourceLines_keptReturn content pending).symm

/-- What is seen of a stream depends on its bytes only. -/
theorem Settles.echoStream_view (maxLineBytes : Nat) (channel : σ)
    (chunks : List (List UInt8)) :
    view (mirror.echoStream maxLineBytes channel chunks) =
      view (mirror.finish ((sourceLines [] chunks.flatten).foldl
        (mirror.mirrorLine maxLineBytes) channel)) := by
  have feeds : mirror.Feeds maxLineBytes []
      ⟨EchoLineLimiter.initial maxLineBytes, channel⟩ :=
    .inr ⟨false, by simp [EchoLineLimiter.initial, fedLimiter], by simp⟩
  obtain ⟨left, fed, same⟩ := settles.foldl_echoChunk_owed maxLineBytes feeds chunks
  rw [echoStream, settles.flushEchoDecoder_owed maxLineBytes fed, ← same]
  rfl

end Settled

end LineMirror

end Cuprum.Echo
