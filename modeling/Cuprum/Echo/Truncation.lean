import Cuprum.Codec.CodeUnits

namespace Cuprum.Echo

open Codec Text

def lineFeed : UInt8 := 0x0A

def carriageReturn : UInt8 := 0x0D

/-- An ASCII-compatible stateless codec, the only kind bounded echo accepts. -/
structure EchoCodec where
  decoder : Decoder CodePoint UInt8
  encodeChar : CodePoint → Option (List UInt8)
  stable : decoder.Stable
  read_ascii : ∀ byte : UInt8, byte.toNat < 0x80 → ∀ rest,
    decoder.read (byte :: rest) = .symbol (.ofNat byte.toNat) 1
  encode_ascii : ∀ byte : UInt8, byte.toNat < 0x80 →
    encodeChar (.ofNat byte.toNat) = some [byte]
  read_lineFeed : ∀ {held} rest, decoder.read held = .truncated → held ≠ [] →
    ∃ width, width ≤ held.length ∧
      decoder.read (held ++ lineFeed :: rest) = .malformed width

/-- What an error policy puts in the place of a malformed sequence, and of a
character the codec cannot encode; absent where it raises.  A call that raises does so
with a `UnicodeError` or, from a policy that cannot answer, with something else. -/
structure ErrorPolicy where
  decode : List UInt8 → Option (List CodePoint)
  encode : CodePoint → Option (List UInt8)
  /-- A decode of these bytes that raises, raises something else. -/
  decodeEscapes : List UInt8 → Bool
  /-- An encode of this text that raises, raises something else. -/
  encodeEscapes : List CodePoint → Bool

/-- Whatever the policy raises, is a `UnicodeError`. -/
structure ErrorPolicy.Heeded (errors : ErrorPolicy) : Prop where
  decode : ∀ bytes, errors.decodeEscapes bytes = false
  encode : ∀ text, errors.encodeEscapes text = false

structure EchoEncoding where
  encoding : EchoCodec
  errors : ErrorPolicy
  isTextSink : Bool

def encodeOne (codec : EchoCodec) (errors : ErrorPolicy) (c : CodePoint) :
    Option (List UInt8) :=
  match codec.encodeChar c with
  | some bytes => some bytes
  | none => errors.encode c

/-- A text in the bytes of its characters, none of which may be refused. -/
def encodeAll (encode : CodePoint → Option (List UInt8)) :
    List CodePoint → Option (List UInt8)
  | [] => some []
  | c :: text =>
      match encode c, encodeAll encode text with
      | some bytes, some rest => some (bytes ++ rest)
      | _, _ => none

def encodeText (codec : EchoCodec) (errors : ErrorPolicy) :
    List CodePoint → Option (List UInt8) :=
  encodeAll (encodeOne codec errors)

def strictErrors : ErrorPolicy :=
  ⟨fun _ => none, fun _ => none, fun _ => false, fun _ => false⟩

def codePoints (text : String) : List CodePoint :=
  text.toList.map CodePoint.ofChar

def truncationMarkerTemplate (dropped : Nat) : List CodePoint :=
  codePoints ("… [truncated " ++ toString dropped ++ " bytes]")

def asciiTruncationMarkerTemplate (dropped : Nat) : List CodePoint :=
  codePoints ("... [truncated " ++ toString dropped ++ " bytes]")

/-- The encoded marker, in its ASCII form where the codec has no ellipsis. -/
def truncationMarker (dropped : Nat) (codec : EchoCodec) (errors : ErrorPolicy) :
    Option (List UInt8) :=
  match encodeText codec strictErrors (truncationMarkerTemplate dropped) with
  | some marker => some marker
  | none => encodeText codec errors (asciiTruncationMarkerTemplate dropped)

structure FinishedEchoLine where
  payload : List UInt8
  droppedBytes : Nat
  sourceBytes : Nat

structure LineFinalization where
  sourceBytes : Nat
  ending : List UInt8
  omittedEndingBytes : Nat

structure EchoLineLimiter where
  maxLineBytes : Nat
  line : List UInt8
  sourceLineBytes : Nat
  hasPendingCarriageReturn : Bool

/-- The scan of a text sink's prefix: what has been encoded, how many source
bytes were read, and the last lengths at which both were safe to cut. -/
structure PrefixScan where
  held : List UInt8
  encoded : List UInt8
  length : Nat
  safeSourceLength : Nat
  safeEncodedLength : Nat

/-- A `UnicodeError` ends the scan, and any other error leaves it. -/
def scanPrefix (settings : EchoEncoding) (budget : Nat) (scan : PrefixScan) :
    List UInt8 → Option PrefixScan
  | [] => some scan
  | byte :: rest =>
      match settings.encoding.decoder.run settings.errors.decode
          (scan.held ++ [byte]) with
      | none =>
          if settings.errors.decodeEscapes (scan.held ++ [byte]) then none else some scan
      | some (decoded, held) =>
          match encodeText settings.encoding settings.errors decoded with
          | none => if settings.errors.encodeEscapes decoded then none else some scan
          | some bytes =>
              let scan := { scan with
                held
                encoded := scan.encoded ++ bytes
                length := scan.length + 1 }
              if held ≠ [] then scanPrefix settings budget scan rest
              else if budget < scan.encoded.length then some scan
              else
                scanPrefix settings budget { scan with
                  safeSourceLength := scan.length
                  safeEncodedLength := scan.encoded.length } rest

/-- The largest source prefix whose echoed bytes fit a budget, and those bytes. -/
def encodePrefix (line : List UInt8) (budget : Nat) (settings : EchoEncoding) :
    Option (List UInt8 × List UInt8) :=
  if settings.isTextSink then
    (scanPrefix settings budget ⟨[], [], 0, 0, 0⟩ line).map fun scan =>
      (line.take scan.safeSourceLength, scan.encoded.take scan.safeEncodedLength)
  else some (line.take budget, line.take budget)

def fitMarker (marker : List UInt8) (budget dropped : Nat)
    (settings : EchoEncoding) : Option (List UInt8) :=
  if marker.length ≤ budget then some marker
  else
    match encodeText settings.encoding settings.errors
        (asciiTruncationMarkerTemplate dropped) with
    | none => none
    | some fallback => (encodePrefix fallback budget settings).map (·.2)

namespace EchoLineLimiter

def initial (maxLineBytes : Nat) : EchoLineLimiter :=
  ⟨maxLineBytes, [], 0, false⟩

/-- Account for source bytes while retaining only the bounded prefix. -/
def boundLine (self : EchoLineLimiter) (segment : List UInt8) : EchoLineLimiter :=
  let remaining := self.maxLineBytes - self.line.length
  { self with
    sourceLineBytes := self.sourceLineBytes + segment.length
    line := if 0 < remaining then self.line ++ segment.take remaining else self.line }

/-- A marker-consistent source prefix and its echoed bytes, in at most `passes`
adjustments of the marker. -/
def boundedPrefix (self : EchoLineLimiter) (line : List UInt8)
    (finalization : LineFinalization) (settings : EchoEncoding) (dropped : Nat) :
    Nat → Option (List UInt8 × List UInt8)
  | 0 => none
  | passes + 1 =>
      match truncationMarker dropped settings.encoding settings.errors with
      | none => none
      | some marker =>
          let budget := self.maxLineBytes - finalization.ending.length - marker.length
          match encodePrefix line budget settings with
          | none => none
          | some (retained, encoded) =>
              let updatedDropped := finalization.sourceBytes - retained.length +
                finalization.omittedEndingBytes
              if updatedDropped = dropped ∨ passes = 0 then some (retained, encoded)
              else boundedPrefix self line finalization settings updatedDropped passes

/-- Finish one line within its byte budget; absent when the marker cannot be encoded or
an error leaves the scan. -/
def finishLine (self : EchoLineLimiter) (ending : List UInt8)
    (settings : EchoEncoding) : Option FinishedEchoLine × EchoLineLimiter :=
  let line := self.line
  let sourceLineBytes := self.sourceLineBytes
  let cleared := { self with line := [], sourceLineBytes := 0 }
  let finalization : LineFinalization :=
    { sourceBytes := sourceLineBytes
      ending := if ending.length ≤ self.maxLineBytes then ending else []
      omittedEndingBytes :=
        if self.maxLineBytes < ending.length then ending.length else 0 }
  let finished : Option FinishedEchoLine :=
    if sourceLineBytes + ending.length ≤ self.maxLineBytes then
      some ⟨line ++ finalization.ending, 0, sourceLineBytes + ending.length⟩
    else do
      let (retained, encoded) ← self.boundedPrefix line finalization settings
        (finalization.sourceBytes + finalization.omittedEndingBytes) 16
      let dropped := finalization.sourceBytes - retained.length +
        finalization.omittedEndingBytes
      let marker ← truncationMarker dropped settings.encoding settings.errors
      let remaining :=
        self.maxLineBytes - encoded.length - finalization.ending.length
      let marker ← fitMarker marker remaining dropped settings
      return ⟨encoded ++ marker ++ finalization.ending, dropped,
        sourceLineBytes + ending.length⟩
  (finished, cleared)

end EchoLineLimiter

/-! Text is encoded character by character. -/

theorem encodeAll_append (encode : CodePoint → Option (List UInt8))
    (left right : List CodePoint) :
    encodeAll encode (left ++ right) =
      (encodeAll encode left).bind fun first =>
        (encodeAll encode right).map (first ++ ·) := by
  induction left with
  | nil => cases found : encodeAll encode right <;> simp [encodeAll, found]
  | cons c left induction =>
      rw [List.cons_append, encodeAll, encodeAll, induction]
      cases encode c with
      | none => rfl
      | some bytes =>
          cases encodeAll encode left with
          | none => rfl
          | some first =>
              cases encodeAll encode right <;> simp

theorem encodeAll_append_inv {encode : CodePoint → Option (List UInt8)}
    {left right : List CodePoint} {bytes : List UInt8}
    (encoded : encodeAll encode (left ++ right) = some bytes) :
    ∃ first second, encodeAll encode left = some first ∧
      encodeAll encode right = some second ∧ bytes = first ++ second := by
  rw [encodeAll_append, Option.bind_eq_some_iff] at encoded
  obtain ⟨first, hleft, encoded⟩ := encoded
  obtain ⟨second, hright, whole⟩ := Option.map_eq_some_iff.mp encoded
  exact ⟨first, second, hleft, hright, whole.symm⟩

theorem encodeAll_isSome {encode : CodePoint → Option (List UInt8)}
    (encodes : ∀ c, (encode c).isSome) (text : List CodePoint) :
    (encodeAll encode text).isSome := by
  induction text with
  | nil => rfl
  | cons c text induction =>
      obtain ⟨first, one⟩ := Option.isSome_iff_exists.mp (encodes c)
      obtain ⟨rest, more⟩ := Option.isSome_iff_exists.mp induction
      simp [encodeAll, one, more]

theorem encodeText_append (codec : EchoCodec) (errors : ErrorPolicy)
    (left right : List CodePoint) :
    encodeText codec errors (left ++ right) =
      (encodeText codec errors left).bind fun first =>
        (encodeText codec errors right).map (first ++ ·) :=
  encodeAll_append _ left right

theorem encodeText_append_of_some {codec : EchoCodec} {errors : ErrorPolicy}
    {left right : List CodePoint} {first second : List UInt8}
    (hleft : encodeText codec errors left = some first)
    (hright : encodeText codec errors right = some second) :
    encodeText codec errors (left ++ right) = some (first ++ second) := by
  rw [encodeText_append, hleft, hright]
  rfl

theorem encodeText_append_inv {codec : EchoCodec} {errors : ErrorPolicy}
    {left right : List CodePoint} {bytes : List UInt8}
    (encoded : encodeText codec errors (left ++ right) = some bytes) :
    ∃ first second, encodeText codec errors left = some first ∧
      encodeText codec errors right = some second ∧ bytes = first ++ second :=
  encodeAll_append_inv encoded

/-- A policy is only asked for the characters the codec cannot encode. -/
theorem encodeText_of_strict {codec : EchoCodec} (errors : ErrorPolicy)
    {text : List CodePoint} {bytes : List UInt8}
    (strict : encodeText codec strictErrors text = some bytes) :
    encodeText codec errors text = some bytes := by
  induction text generalizing bytes with
  | nil => exact strict
  | cons c text induction =>
      rw [encodeText, encodeAll] at strict ⊢
      cases one : codec.encodeChar c with
      | none => simp [encodeOne, one, strictErrors] at strict
      | some word =>
          cases rest : encodeAll (encodeOne codec strictErrors) text with
          | none => simp [encodeOne, one, rest] at strict
          | some more =>
              have later : encodeAll (encodeOne codec errors) text = some more := induction rest
              rw [later]
              simpa [encodeOne, one, rest] using strict

def Encoded (codec : EchoCodec) (errors : ErrorPolicy) (bytes : List UInt8) : Prop :=
  ∃ text, encodeText codec errors text = some bytes

theorem Encoded.nil (codec : EchoCodec) (errors : ErrorPolicy) :
    Encoded codec errors [] :=
  ⟨[], rfl⟩

theorem Encoded.append {codec : EchoCodec} {errors : ErrorPolicy}
    {first second : List UInt8} (hfirst : Encoded codec errors first)
    (hsecond : Encoded codec errors second) :
    Encoded codec errors (first ++ second) := by
  obtain ⟨left, hleft⟩ := hfirst
  obtain ⟨right, hright⟩ := hsecond
  exact ⟨left ++ right, encodeText_append_of_some hleft hright⟩

def asciiText (bytes : List UInt8) : List CodePoint :=
  bytes.map fun byte => .ofNat byte.toNat

theorem encodeText_ascii (codec : EchoCodec) (errors : ErrorPolicy)
    {bytes : List UInt8} (ascii : ∀ byte ∈ bytes, byte.toNat < 0x80) :
    encodeText codec errors (asciiText bytes) = some bytes := by
  induction bytes with
  | nil => rfl
  | cons byte bytes induction =>
      have single := codec.encode_ascii byte (ascii byte List.mem_cons_self)
      have rest := induction fun other member =>
        ascii other (List.mem_cons_of_mem byte member)
      rw [encodeText] at rest ⊢
      rw [asciiText, List.map_cons, encodeAll, ← asciiText, rest, encodeOne, single]
      rfl

theorem encoded_ascii (codec : EchoCodec) (errors : ErrorPolicy)
    {bytes : List UInt8} (ascii : ∀ byte ∈ bytes, byte.toNat < 0x80) :
    Encoded codec errors bytes :=
  ⟨asciiText bytes, encodeText_ascii codec errors ascii⟩

theorem encoded_truncationMarker {dropped : Nat} {codec : EchoCodec}
    {errors : ErrorPolicy} {marker : List UInt8}
    (encoded : truncationMarker dropped codec errors = some marker) :
    Encoded codec errors marker := by
  unfold truncationMarker at encoded
  split at encoded
  next strict =>
    cases encoded
    exact ⟨_, encodeText_of_strict errors strict⟩
  next => exact ⟨_, encoded⟩

theorem codePoints_append (left right : String) :
    codePoints (left ++ right) = codePoints left ++ codePoints right := by
  simp [codePoints]

theorem one_lt_truncationMarker_length {dropped : Nat} {codec : EchoCodec}
    {errors : ErrorPolicy} {marker : List UInt8}
    (marked : truncationMarker dropped codec errors = some marker) :
    1 < marker.length := by
  have closed {policy : ErrorPolicy} {text : String} {bytes : List UInt8}
      (encoded : encodeText codec policy (codePoints (text ++ " bytes]")) =
        some bytes) : 1 < bytes.length := by
    rw [codePoints_append] at encoded
    obtain ⟨first, second, _, tail, rfl⟩ := encodeText_append_inv encoded
    have spelled : codePoints " bytes]" =
        asciiText [0x20, 0x62, 0x79, 0x74, 0x65, 0x73, 0x5D] := by
      decide
    rw [spelled, encodeText_ascii codec policy (by simp)] at tail
    cases tail
    rw [List.length_append]
    exact Nat.lt_add_left _ (by decide)
  unfold truncationMarker at marked
  split at marked
  next strict =>
    cases marked
    exact closed strict
  next => exact closed marked

theorem asciiTruncationMarker_head {dropped : Nat} {codec : EchoCodec}
    {errors : ErrorPolicy} {fallback : List UInt8}
    (encoded : encodeText codec errors (asciiTruncationMarkerTemplate dropped) =
      some fallback) : ∃ rest, fallback = 0x2E :: rest := by
  rw [asciiTruncationMarkerTemplate, String.append_assoc, codePoints_append]
    at encoded
  obtain ⟨first, second, head, _, rfl⟩ := encodeText_append_inv encoded
  have spelled : codePoints "... [truncated " = asciiText [0x2E, 0x2E, 0x2E, 0x20,
      0x5B, 0x74, 0x72, 0x75, 0x6E, 0x63, 0x61, 0x74, 0x65, 0x64, 0x20] := by
    decide
  rw [spelled, encodeText_ascii codec errors (by simp)] at head
  cases head
  exact ⟨_, rfl⟩

/-! The prefix search keeps within its budget and cuts between characters. -/

structure PrefixScan.Safe (settings : EchoEncoding) (budget : Nat)
    (scan : PrefixScan) : Prop where
  withinBudget : scan.safeEncodedLength ≤ budget
  encoded : Encoded settings.encoding settings.errors scan.encoded
  safe : Encoded settings.encoding settings.errors
    (scan.encoded.take scan.safeEncodedLength)
  safeLength : scan.safeEncodedLength ≤ scan.encoded.length

theorem scanPrefix_safe {settings : EchoEncoding} {budget : Nat}
    {scan found : PrefixScan} (safe : scan.Safe settings budget) {line : List UInt8}
    (scanned : scanPrefix settings budget scan line = some found) :
    found.Safe settings budget := by
  induction line generalizing scan with
  | nil =>
      cases scanned
      exact safe
  | cons byte rest induction =>
      rw [scanPrefix] at scanned
      split at scanned
      next =>
        obtain ⟨_, ⟨⟩⟩ := Option.ite_none_left_eq_some.mp scanned
        exact safe
      next decoded held _ =>
        split at scanned
        next =>
          obtain ⟨_, ⟨⟩⟩ := Option.ite_none_left_eq_some.mp scanned
          exact safe
        next bytes encoded =>
          have grown : Encoded settings.encoding settings.errors
              (scan.encoded ++ bytes) := safe.encoded.append ⟨decoded, encoded⟩
          have kept : (scan.encoded ++ bytes).take scan.safeEncodedLength =
              scan.encoded.take scan.safeEncodedLength :=
            List.take_append_of_le_length safe.safeLength
          have longer : scan.safeEncodedLength ≤ (scan.encoded ++ bytes).length := by
            rw [List.length_append]
            exact Nat.le_add_right_of_le safe.safeLength
          have next : PrefixScan.Safe settings budget
              { scan with
                held
                encoded := scan.encoded ++ bytes
                length := scan.length + 1 } :=
            ⟨safe.withinBudget, grown, kept ▸ safe.safe, longer⟩
          dsimp only at scanned
          split at scanned
          next => exact induction next scanned
          next =>
            split at scanned
            next =>
              cases scanned
              exact next
            next fits =>
              refine induction ⟨Nat.le_of_not_lt fits, grown, ?_, Nat.le_refl _⟩ scanned
              dsimp only
              rwa [List.take_length]

theorem scanPrefix_initial_safe (settings : EchoEncoding) (budget : Nat) :
    PrefixScan.Safe settings budget ⟨[], [], 0, 0, 0⟩ :=
  ⟨Nat.zero_le _, .nil _ _, .nil _ _, Nat.le_refl _⟩

theorem encodePrefix_length_le {line : List UInt8} {budget : Nat}
    {settings : EchoEncoding} {found : List UInt8 × List UInt8}
    (cut : encodePrefix line budget settings = some found) : found.2.length ≤ budget := by
  unfold encodePrefix at cut
  split at cut
  · obtain ⟨scan, scanned, rfl⟩ := Option.map_eq_some_iff.mp cut
    have safe := scanPrefix_safe (scanPrefix_initial_safe settings budget) scanned
    exact (List.length_take_le _ _).trans safe.withinBudget
  · cases cut
    exact List.length_take_le _ _

theorem encodePrefix_encoded {line : List UInt8} {budget : Nat}
    {settings : EchoEncoding} (textSink : settings.isTextSink = true)
    {found : List UInt8 × List UInt8}
    (cut : encodePrefix line budget settings = some found) :
    Encoded settings.encoding settings.errors found.2 := by
  rw [encodePrefix, if_pos textSink] at cut
  obtain ⟨scan, scanned, rfl⟩ := Option.map_eq_some_iff.mp cut
  exact (scanPrefix_safe (scanPrefix_initial_safe settings budget) scanned).safe

theorem encodePrefix_one {settings : EchoEncoding}
    (textSink : settings.isTextSink = true) {rest : List UInt8}
    {found : List UInt8 × List UInt8}
    (cut : encodePrefix (0x2E :: rest) 1 settings = some found) : found.2 = [0x2E] := by
  have begins : ∀ (line : List UInt8) (scan found : PrefixScan),
      [0x2E] <+: scan.encoded → scan.safeEncodedLength = 1 →
        scanPrefix settings 1 scan line = some found →
          [0x2E] <+: found.encoded ∧ found.safeEncodedLength = 1 := by
    intro line
    induction line with
    | nil =>
        intro scan found begun safe scanned
        cases scanned
        exact ⟨begun, safe⟩
    | cons byte line induction =>
        intro scan found begun safe scanned
        rw [scanPrefix] at scanned
        split at scanned
        next =>
          obtain ⟨_, ⟨⟩⟩ := Option.ite_none_left_eq_some.mp scanned
          exact ⟨begun, safe⟩
        next decoded held _ =>
          split at scanned
          next =>
            obtain ⟨_, ⟨⟩⟩ := Option.ite_none_left_eq_some.mp scanned
            exact ⟨begun, safe⟩
          next bytes _ =>
            have more : [0x2E] <+: scan.encoded ++ bytes :=
              begun.trans (List.prefix_append _ _)
            dsimp only at scanned
            split at scanned
            next =>
              refine induction _ _ ?_ ?_ scanned
              · exact more
              · exact safe
            next =>
              split at scanned
              next =>
                cases scanned
                exact ⟨more, safe⟩
              next fits =>
                exact induction _ _ more
                  (Nat.le_antisymm (Nat.le_of_not_lt fits) more.length_le) scanned
  have dot : settings.encoding.decoder.run settings.errors.decode [0x2E] =
      some ([.ofNat 0x2E], []) := by
    rw [Decoder.run_of_symbol _ (settings.encoding.read_ascii 0x2E (by decide) [])]
    simp [Decoder.run_of_truncated _ (Decoder.read_nil _)]
  have first : encodeText settings.encoding settings.errors [.ofNat 0x2E] =
      some [0x2E] :=
    @encodeText_ascii settings.encoding settings.errors [0x2E] (by simp)
  have whole : scanPrefix settings 1 ⟨[], [], 0, 0, 0⟩ (0x2E :: rest) =
      scanPrefix settings 1 ⟨[], [0x2E], 1, 1, 1⟩ rest := by
    rw [scanPrefix]
    simp [dot, first]
  rw [encodePrefix, if_pos textSink, whole] at cut
  obtain ⟨scan, scanned, rfl⟩ := Option.map_eq_some_iff.mp cut
  obtain ⟨⟨more, begun⟩, safe⟩ :=
    begins rest ⟨[], [0x2E], 1, 1, 1⟩ scan List.prefix_rfl rfl scanned
  dsimp only
  rw [safe, ← begun]
  rfl

theorem fitMarker_length_le {marker fitted : List UInt8} {budget dropped : Nat}
    {settings : EchoEncoding}
    (fit : fitMarker marker budget dropped settings = some fitted) :
    fitted.length ≤ budget := by
  unfold fitMarker at fit
  split at fit
  next short =>
    cases fit
    exact short
  next =>
    split at fit
    next => cases fit
    next =>
      obtain ⟨found, cut, rfl⟩ := Option.map_eq_some_iff.mp fit
      exact encodePrefix_length_le cut

theorem fitMarker_encoded {marker fitted : List UInt8} {budget dropped : Nat}
    {settings : EchoEncoding} (textSink : settings.isTextSink = true)
    (encoded : Encoded settings.encoding settings.errors marker)
    (fit : fitMarker marker budget dropped settings = some fitted) :
    Encoded settings.encoding settings.errors fitted := by
  unfold fitMarker at fit
  split at fit
  next =>
    cases fit
    exact encoded
  next =>
    split at fit
    next => cases fit
    next =>
      obtain ⟨found, cut, rfl⟩ := Option.map_eq_some_iff.mp fit
      exact encodePrefix_encoded textSink cut

namespace EchoLineLimiter

theorem boundedPrefix_bounded {self : EchoLineLimiter} {line : List UInt8}
    {finalization : LineFinalization} {settings : EchoEncoding}
    {dropped passes : Nat} {found : List UInt8 × List UInt8}
    (bounded : self.boundedPrefix line finalization settings dropped passes =
      some found) :
    found.2.length ≤ self.maxLineBytes - finalization.ending.length - 2 ∧
      (settings.isTextSink = true →
        Encoded settings.encoding settings.errors found.2) := by
  induction passes generalizing dropped with
  | zero => cases bounded
  | succ passes induction =>
      rw [boundedPrefix] at bounded
      split at bounded
      next => cases bounded
      next marker marked =>
        dsimp only at bounded
        split at bounded
        next => cases bounded
        next retained encoded cut =>
          split at bounded
          next =>
            cases bounded
            have within := encodePrefix_length_le cut
            have long := one_lt_truncationMarker_length marked
            exact ⟨within.trans (Nat.sub_le_sub_left long _),
              fun textSink => encodePrefix_encoded textSink cut⟩
          next => exact induction bounded

theorem boundedPrefix_congr {self other : EchoLineLimiter}
    (same : self.maxLineBytes = other.maxLineBytes) (line : List UInt8)
    (finalization : LineFinalization) (settings : EchoEncoding)
    (dropped passes : Nat) :
    self.boundedPrefix line finalization settings dropped passes =
      other.boundedPrefix line finalization settings dropped passes := by
  induction passes generalizing dropped with
  | zero => rfl
  | succ passes induction => simp only [boundedPrefix, same, induction]

theorem finishLine_pending (self : EchoLineLimiter) (pending : Bool)
    (ending : List UInt8) (settings : EchoEncoding) :
    { self with hasPendingCarriageReturn := pending }.finishLine ending settings =
      ((self.finishLine ending settings).1,
        { self with
          line := []
          sourceLineBytes := 0
          hasPendingCarriageReturn := pending }) := by
  have same := @boundedPrefix_congr self
    { self with hasPendingCarriageReturn := pending } rfl
  simp only [finishLine, same]

/-- The ending a bound has room for. -/
def keptEnding (self : EchoLineLimiter) (ending : List UInt8) : List UInt8 :=
  if ending.length ≤ self.maxLineBytes then ending else []

theorem keptEnding_length_le (self : EchoLineLimiter) (ending : List UInt8) :
    (self.keptEnding ending).length ≤ self.maxLineBytes := by
  unfold keptEnding
  split
  next fits => exact fits
  next => exact Nat.zero_le _

theorem finishLine_of_fits {self : EchoLineLimiter} {ending : List UInt8}
    (fits : self.sourceLineBytes + ending.length ≤ self.maxLineBytes)
    (settings : EchoEncoding) :
    (self.finishLine ending settings).1 =
      some ⟨self.line ++ ending, 0, self.sourceLineBytes + ending.length⟩ := by
  have room : ending.length ≤ self.maxLineBytes := by omega
  simp only [finishLine, if_pos fits, if_pos room]

theorem finishLine_of_exceeds {self : EchoLineLimiter} {ending : List UInt8}
    (exceeds : ¬ self.sourceLineBytes + ending.length ≤ self.maxLineBytes)
    {settings : EchoEncoding} {finished : FinishedEchoLine}
    (found : (self.finishLine ending settings).1 = some finished) :
    ∃ encoded marker, finished.payload = encoded ++ marker ++ self.keptEnding ending ∧
      encoded.length ≤ self.maxLineBytes - (self.keptEnding ending).length ∧
      marker.length ≤
        self.maxLineBytes - encoded.length - (self.keptEnding ending).length ∧
      (settings.isTextSink = true →
        Encoded settings.encoding settings.errors encoded ∧
          Encoded settings.encoding settings.errors marker) := by
  simp only [finishLine, if_neg exceeds, Option.bind_eq_bind,
    Option.bind_eq_some_iff, Option.pure_def] at found
  obtain ⟨⟨retained, encoded⟩, bounded, marker, marked, fitted, fit, equal⟩ := found
  cases equal
  obtain ⟨within, encodedText⟩ := boundedPrefix_bounded bounded
  refine ⟨encoded, fitted, rfl, within.trans (Nat.sub_le _ _),
    fitMarker_length_le fit, ?_⟩
  intro textSink
  exact ⟨encodedText textSink,
    fitMarker_encoded textSink (encoded_truncationMarker marked) fit⟩

/-- Under the one-byte bound a line that loses its ending shows a single byte. -/
theorem finishLine_of_one {self : EchoLineLimiter} (one : self.maxLineBytes = 1)
    {ending : List UInt8} (long : 1 < ending.length) {settings : EchoEncoding}
    (textSink : settings.isTextSink = true) {finished : FinishedEchoLine}
    (found : (self.finishLine ending settings).1 = some finished) :
    finished.payload = [0x2E] := by
  have exceeds : ¬ self.sourceLineBytes + ending.length ≤ self.maxLineBytes := by
    omega
  have omitted : ¬ ending.length ≤ self.maxLineBytes := by
    omega
  simp only [finishLine, if_neg exceeds, if_neg omitted, Option.bind_eq_bind,
    Option.bind_eq_some_iff, Option.pure_def] at found
  obtain ⟨⟨retained, encoded⟩, bounded, marker, marked, fitted, fit, equal⟩ := found
  cases equal
  have empty : encoded = [] := by
    have within := (boundedPrefix_bounded bounded).1
    apply List.eq_nil_of_length_eq_zero
    simp only [one] at within
    omega
  have wide : ¬ marker.length ≤ 1 :=
    Nat.not_le_of_lt (one_lt_truncationMarker_length marked)
  subst empty
  simp only [one, List.length_nil, Nat.sub_zero, fitMarker, if_neg wide] at fit
  split at fit
  next => cases fit
  next fallback spelled =>
    obtain ⟨rest, rfl⟩ := asciiTruncationMarker_head spelled
    obtain ⟨found, cut, rfl⟩ := Option.map_eq_some_iff.mp fit
    simp [encodePrefix_one textSink cut]

theorem finishLine_payload_le {self : EchoLineLimiter} {ending : List UInt8}
    (retains : self.line.length ≤ self.sourceLineBytes) {settings : EchoEncoding}
    {finished : FinishedEchoLine}
    (found : (self.finishLine ending settings).1 = some finished) :
    finished.payload.length ≤ self.maxLineBytes := by
  by_cases fits : self.sourceLineBytes + ending.length ≤ self.maxLineBytes
  · rw [finishLine_of_fits fits] at found
    cases found
    rw [List.length_append]
    omega
  · obtain ⟨encoded, marker, shape, within, room, _⟩ :=
      finishLine_of_exceeds fits found
    have := self.keptEnding_length_le ending
    rw [shape, List.length_append, List.length_append]
    omega

end EchoLineLimiter

/-- Per-line echo writes of a chunk, whose first line is begun by `body`.  The
bytes of an unterminated last line have no ending. -/
def splitEchoSegments (body : List UInt8) :
    List UInt8 → List (List UInt8 × Option (List UInt8))
  | [] => if body = [] then [] else [(body, none)]
  | byte :: rest =>
      if byte = lineFeed then
        (if body.getLast? = some carriageReturn then
          (body.dropLast, some [carriageReturn, lineFeed])
        else (body, some [lineFeed])) :: splitEchoSegments [] rest
      else splitEchoSegments (body ++ [byte]) rest

end Cuprum.Echo
