import Cuprum.Codec.Utf8

namespace Cuprum.Streams

open Codec

/-! The replacement decoder of the native stream loops.  A buffer is a list of
bytes and a `String` the list of its scalar values. -/

def replacement : Char := '\uFFFD'

structure Utf8Error where
  validUpTo : Nat
  errorLen : Option Nat

/-- `std::str::from_utf8`: the text of a valid slice, or how far it is valid and
how long the invalid sequence found there is.  The length is absent when the
slice ends inside a sequence that more input could complete. -/
def fromUtf8 (bytes : List UInt8) : Except Utf8Error (List Char) :=
  if bytes = [] then .ok []
  else
    match _found : utf8.front bytes with
    | .symbol c =>
        match fromUtf8 (bytes.drop (utf8.encode c).length) with
        | .ok text => .ok (c :: text)
        | .error err =>
            .error ⟨(utf8.encode c).length + err.validUpTo, err.errorLen⟩
    | .malformed width => .error ⟨0, some width⟩
    | .truncated => .error ⟨0, none⟩
termination_by bytes.length
decreasing_by
  have := utf8.encode_length_pos c
  have := (utf8.front_symbol_iff.mp _found).length_le
  rw [List.length_drop]
  omega

inductive ScanOutcome
  | consumed
  | continueAt (offset : Nat)
  | incomplete (tailStart : Nat)

inductive ErrorStep
  | advance (width : Nat)
  | incomplete (validUpTo : Nat)

/-- Continue scanning unless the advance reaches the end of the buffer.  Offset
and advance lie inside one buffer, so the saturating sum is the sum. -/
def resumeAt (pendingLen offset advance : Nat) : ScanOutcome :=
  let next := offset + advance
  if pendingLen ≤ next then .consumed else .continueAt next

def appendValidPrefix (remaining : List UInt8) (output : List Char)
    (validUpTo : Nat) : List Char :=
  if validUpTo = 0 then output
  else if validUpTo ≤ remaining.length then
    match fromUtf8 (remaining.take validUpTo) with
    | .ok validPrefix => output ++ validPrefix
    | .error _ => output
  else output

def handleUtf8Error (output : List Char) (err : Utf8Error) :
    List Char × ErrorStep :=
  match err.errorLen with
  | none => (output, .incomplete err.validUpTo)
  | some errorLen =>
      (output ++ [replacement], .advance (err.validUpTo + errorLen))

def scanOnce (pending : List UInt8) (output : List Char) (offset : Nat) :
    List Char × ScanOutcome :=
  if offset ≤ pending.length then
    let remaining := pending.drop offset
    match fromUtf8 remaining with
    | .ok valid => (output ++ valid, .consumed)
    | .error err =>
        match handleUtf8Error (appendValidPrefix remaining output err.validUpTo)
            err with
        | (output, .advance advance) =>
            (output, resumeAt pending.length offset advance)
        | (output, .incomplete validUpTo) =>
            (output, .incomplete (offset + validUpTo))
  else (output, .consumed)

/-- Finish a scan that ended inside an incomplete sequence. -/
def handleIncompleteSequence (pending : List UInt8) (output : List Char)
    (tailStart : Nat) (finalChunk : Bool) : List UInt8 × List Char :=
  if finalChunk then ([], output ++ [replacement])
  else
    let tail := min tailStart pending.length
    if 0 < tail then (pending.drop tail, output) else (pending, output)

/-! What one slice can hold: code points, then nothing, a malformed sequence or
a truncated one. -/

theorem fromUtf8_encode_append (c : Char) (rest : List UInt8) :
    fromUtf8 (utf8.encode c ++ rest) =
      match fromUtf8 rest with
      | .ok text => .ok (c :: text)
      | .error err =>
          .error ⟨(utf8.encode c).length + err.validUpTo, err.errorLen⟩ := by
  have nonempty : utf8.encode c ++ rest ≠ [] := by simp
  rw [fromUtf8, if_neg nonempty]
  split
  next other found =>
    rw [utf8.front_encode_append] at found
    injection found with equal
    subst other
    rw [List.drop_left]
  next found =>
    rw [utf8.front_encode_append] at found
    cases found
  next found =>
    rw [utf8.front_encode_append] at found
    cases found

theorem fromUtf8_of_malformed {bytes : List UInt8} {width : Nat}
    (nonempty : bytes ≠ []) (malformed : utf8.front bytes = .malformed width) :
    fromUtf8 bytes = .error ⟨0, some width⟩ := by
  rw [fromUtf8, if_neg nonempty]
  split
  next found =>
    rw [malformed] at found
    cases found
  next other found =>
    rw [malformed] at found
    injection found with equal
    rw [equal]
  next found =>
    rw [malformed] at found
    cases found

theorem fromUtf8_of_isPartial {bytes : List UInt8}
    (isPartial : IsPartial utf8.encode bytes) :
    fromUtf8 bytes = .error ⟨0, none⟩ := by
  have truncated := (utf8.front_truncated_iff isPartial.1).mpr isPartial
  rw [fromUtf8, if_neg isPartial.1]
  split
  next found =>
    rw [truncated] at found
    cases found
  next found =>
    rw [truncated] at found
    cases found
  next => rfl

theorem fromUtf8_encodeAll_append (text : List Char) (rest : List UInt8) :
    fromUtf8 (utf8.encodeAll text ++ rest) =
      match fromUtf8 rest with
      | .ok more => .ok (text ++ more)
      | .error err =>
          .error ⟨(utf8.encodeAll text).length + err.validUpTo, err.errorLen⟩ := by
  induction text with
  | nil => cases found : fromUtf8 rest <;> simp [found]
  | cons c text induction =>
      rw [PrefixCode.encodeAll_cons, List.append_assoc, fromUtf8_encode_append,
        induction]
      cases fromUtf8 rest <;> simp [Nat.add_assoc]

@[simp] theorem fromUtf8_nil : fromUtf8 [] = .ok [] := by
  rw [fromUtf8]
  rfl

@[simp] theorem fromUtf8_encodeAll (text : List Char) :
    fromUtf8 (utf8.encodeAll text) = .ok text := by
  simpa using fromUtf8_encodeAll_append text []

/-- The outcomes of a validation, as the standard library documents them. -/
inductive Validated : List UInt8 → Except Utf8Error (List Char) → Prop
  | ok (text : List Char) : Validated (utf8.encodeAll text) (.ok text)
  | malformed (text : List Char) (rest : List UInt8) {width : Nat} :
      (∀ c, ¬ utf8.encode c <+: rest) → MaximalSubpart utf8.encode rest width →
      ¬ IsPartial utf8.encode rest →
      Validated (utf8.encodeAll text ++ rest)
        (.error ⟨(utf8.encodeAll text).length, some width⟩)
  | truncated (text : List Char) (rest : List UInt8) :
      IsPartial utf8.encode rest →
      Validated (utf8.encodeAll text ++ rest)
        (.error ⟨(utf8.encodeAll text).length, none⟩)

theorem validated_fromUtf8 (bytes : List UInt8) :
    Validated bytes (fromUtf8 bytes) := by
  obtain ⟨text, rest, rfl, rfl | ⟨nonempty, width, found⟩ | isPartial⟩ :=
    utf8.exists_split bytes
  · simpa using Validated.ok text
  · rw [fromUtf8_encodeAll_append, fromUtf8_of_malformed nonempty found]
    refine .malformed text rest ?_ (utf8.front_malformed nonempty found) ?_
    · intro c isPrefix
      rw [utf8.front_symbol_iff.mpr isPrefix] at found
      cases found
    · intro isPartial
      rw [(utf8.front_truncated_iff nonempty).mpr isPartial] at found
      cases found
  · rw [fromUtf8_encodeAll_append, fromUtf8_of_isPartial isPartial]
    exact .truncated text rest isPartial

theorem appendValidPrefix_encodeAll (text : List Char) (rest : List UInt8)
    (output : List Char) :
    appendValidPrefix (utf8.encodeAll text ++ rest) output
      (utf8.encodeAll text).length = output ++ text := by
  unfold appendValidPrefix
  split
  next empty =>
    cases text with
    | nil => simp
    | cons c text =>
        have := utf8.encode_length_pos c
        rw [PrefixCode.encodeAll_cons, List.length_append] at empty
        omega
  next =>
    rw [if_pos (by simp), List.take_left]
    simp

theorem scanOnce_of_ok {pending : List UInt8} {offset : Nat} {text : List Char}
    (inside : offset ≤ pending.length)
    (shape : pending.drop offset = utf8.encodeAll text) (output : List Char) :
    scanOnce pending output offset = (output ++ text, .consumed) := by
  rw [scanOnce, if_pos inside]
  simp [shape]

theorem scanOnce_of_malformed {pending rest : List UInt8} {offset width : Nat}
    {text : List Char} (inside : offset ≤ pending.length)
    (shape : pending.drop offset = utf8.encodeAll text ++ rest)
    (nonempty : rest ≠ []) (malformed : utf8.front rest = .malformed width)
    (output : List Char) :
    scanOnce pending output offset =
      (output ++ text ++ [replacement],
        resumeAt pending.length offset ((utf8.encodeAll text).length + width)) := by
  have found := fromUtf8_encodeAll_append text rest
  rw [fromUtf8_of_malformed nonempty malformed] at found
  rw [scanOnce, if_pos inside]
  simp only [shape, found, handleUtf8Error, Nat.add_zero,
    appendValidPrefix_encodeAll]

theorem scanOnce_of_truncated {pending rest : List UInt8} {offset : Nat}
    {text : List Char} (inside : offset ≤ pending.length)
    (shape : pending.drop offset = utf8.encodeAll text ++ rest)
    (isPartial : IsPartial utf8.encode rest) (output : List Char) :
    scanOnce pending output offset =
      (output ++ text,
        .incomplete (offset + (utf8.encodeAll text).length)) := by
  have found := fromUtf8_encodeAll_append text rest
  rw [fromUtf8_of_isPartial isPartial] at found
  rw [scanOnce, if_pos inside]
  simp only [shape, found, handleUtf8Error, Nat.add_zero,
    appendValidPrefix_encodeAll]

theorem scanOnce_continueAt {pending : List UInt8} {output : List Char}
    {offset next : Nat} (resumed : (scanOnce pending output offset).2 =
      .continueAt next) : offset < next ∧ next < pending.length := by
  by_cases inside : offset ≤ pending.length
  · obtain ⟨text, rest, shape, rfl | ⟨nonempty, width, found⟩ | isPartial⟩ :=
      utf8.exists_split (pending.drop offset)
    · rw [List.append_nil] at shape
      rw [scanOnce_of_ok inside shape] at resumed
      cases resumed
    · rw [scanOnce_of_malformed inside shape nonempty found] at resumed
      have := (utf8.front_malformed nonempty found).pos
      simp only [resumeAt] at resumed
      split_ifs at resumed
      injection resumed with equal
      omega
    · rw [scanOnce_of_truncated inside shape isPartial] at resumed
      cases resumed
  · rw [scanOnce, if_neg inside] at resumed
    cases resumed

/-- The forward scan of the buffer from an offset. -/
def decodeFrom (pending : List UInt8) (output : List Char) (offset : Nat)
    (finalChunk : Bool) : List UInt8 × List Char :=
  match _scanned : scanOnce pending output offset with
  | (output, .consumed) => ([], output)
  | (output, .continueAt next) => decodeFrom pending output next finalChunk
  | (output, .incomplete tailStart) =>
      handleIncompleteSequence pending output tailStart finalChunk
termination_by pending.length - offset
decreasing_by
  have := scanOnce_continueAt (congrArg Prod.snd _scanned)
  omega

/-- Decode pending bytes as UTF-8, replacing invalid sequences: what stays
pending, and the output. -/
def decodeUtf8Replace (pending : List UInt8) (output : List Char)
    (finalChunk : Bool) : List UInt8 × List Char :=
  decodeFrom pending output 0 finalChunk

def render (decoded : List (Option Char)) : List Char :=
  decoded.map (·.getD replacement)

@[simp] theorem render_nil : render [] = [] := rfl

@[simp] theorem render_cons (symbol : Option Char) (rest : List (Option Char)) :
    render (symbol :: rest) = symbol.getD replacement :: render rest :=
  rfl

@[simp] theorem render_append (left right : List (Option Char)) :
    render (left ++ right) = render left ++ render right :=
  List.map_append

@[simp] theorem render_map_some (text : List Char) :
    render (text.map some) = text := by
  induction text with
  | nil => rfl
  | cons c text induction => simp [induction]

theorem decodeFrom_of_consumed {pending : List UInt8} {output out : List Char}
    {offset : Nat} (scanned : scanOnce pending output offset = (out, .consumed))
    (finalChunk : Bool) :
    decodeFrom pending output offset finalChunk = ([], out) := by
  rw [decodeFrom]
  split <;> simp_all

theorem decodeFrom_of_continueAt {pending : List UInt8} {output out : List Char}
    {offset next : Nat}
    (scanned : scanOnce pending output offset = (out, .continueAt next))
    (finalChunk : Bool) :
    decodeFrom pending output offset finalChunk =
      decodeFrom pending out next finalChunk := by
  rw [decodeFrom]
  split <;> simp_all

theorem decodeFrom_of_incomplete {pending : List UInt8} {output out : List Char}
    {offset tailStart : Nat}
    (scanned : scanOnce pending output offset = (out, .incomplete tailStart))
    (finalChunk : Bool) :
    decodeFrom pending output offset finalChunk =
      handleIncompleteSequence pending out tailStart finalChunk := by
  rw [decodeFrom]
  split <;> simp_all

/-- What the offset loop computes: the scan of the unread part of the buffer,
whose tail a final chunk replaces and any other chunk keeps pending. -/
def settle (output : List Char) (scanned : List (Option Char) × List UInt8)
    (finalChunk : Bool) : List UInt8 × List Char :=
  match scanned, finalChunk with
  | (decoded, []), _ => ([], output ++ render decoded)
  | (decoded, _ :: _), true => ([], output ++ render decoded ++ [replacement])
  | (decoded, tail), false => (tail, output ++ render decoded)

theorem settle_prepend (output : List Char) (first decoded : List (Option Char))
    (tail : List UInt8) (finalChunk : Bool) :
    settle output (first ++ decoded, tail) finalChunk =
      settle (output ++ render first) (decoded, tail) finalChunk := by
  cases tail <;> cases finalChunk <;> simp [settle]

theorem decodeFrom_eq (pending : List UInt8) (output : List Char) (offset : Nat)
    (finalChunk : Bool) (inside : offset ≤ pending.length) :
    decodeFrom pending output offset finalChunk =
      settle output (utf8.scan (pending.drop offset)) finalChunk := by
  induction left : pending.length - offset using Nat.strongRecOn
    generalizing output offset with
  | ind n induction =>
      obtain ⟨text, rest, shape, rfl | ⟨nonempty, width, found⟩ | isPartial⟩ :=
        utf8.exists_split (pending.drop offset)
      · have whole : pending.drop offset = utf8.encodeAll text := by
          simpa using shape
        rw [decodeFrom_of_consumed (scanOnce_of_ok inside whole output), shape,
          utf8.scan_encodeAll_append]
        simp [settle]
      · have subpart := utf8.front_malformed nonempty found
        have scanned := scanOnce_of_malformed inside shape nonempty found output
        have after : pending.drop (offset + ((utf8.encodeAll text).length + width)) =
            rest.drop width := by
          rw [← List.drop_drop, shape, ← List.drop_drop, List.drop_left]
        have total := congrArg List.length shape
        rw [List.length_drop, List.length_append] at total
        have := subpart.pos
        have := subpart.le_length
        rw [shape, utf8.scan_encodeAll_append,
          utf8.scan_of_malformed nonempty found]
        rw [show text.map some ++ (none :: (utf8.scan (rest.drop width)).1) =
            (text.map some ++ [none]) ++ (utf8.scan (rest.drop width)).1 by simp,
          settle_prepend]
        by_cases last : pending.length ≤
            offset + ((utf8.encodeAll text).length + width)
        · simp only [resumeAt, if_pos last] at scanned
          have empty : rest.drop width = [] :=
            List.drop_eq_nil_of_le (by omega)
          rw [decodeFrom_of_consumed scanned, empty, utf8.scan_nil]
          simp [settle]
        · simp only [resumeAt, if_neg last] at scanned
          rw [decodeFrom_of_continueAt scanned,
            induction _ (by omega) _ _ (by omega) rfl, after]
          simp
      · have scanned := scanOnce_of_truncated inside shape isPartial output
        have tailStart : pending.drop (offset + (utf8.encodeAll text).length) =
            rest := by
          rw [← List.drop_drop, shape, List.drop_left]
        have total := congrArg List.length shape
        rw [List.length_drop, List.length_append] at total
        rw [decodeFrom_of_incomplete scanned, shape, utf8.scan_encodeAll_append,
          utf8.scan_of_isPartial isPartial, settle_prepend, render_map_some]
        obtain ⟨byte, bytes, rfl⟩ := List.exists_cons_of_ne_nil isPartial.1
        cases finalChunk with
        | true => simp [handleIncompleteSequence, settle]
        | false =>
            have bounded : min (offset + (utf8.encodeAll text).length)
                pending.length = offset + (utf8.encodeAll text).length := by
              omega
            simp only [handleIncompleteSequence, settle, bounded, tailStart]
            by_cases skip : 0 < offset + (utf8.encodeAll text).length
            · simp [skip]
            · have start : offset + (utf8.encodeAll text).length = 0 := by
                omega
              rw [start, List.drop_zero] at tailStart
              simp [start, tailStart]

end Cuprum.Streams
