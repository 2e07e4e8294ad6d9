import Cuprum.BoundedEcho.Limiter

namespace Cuprum.BoundedEcho

open Text Echo

/-! What a sink shows of a whole source, and the longest prefix it shows within a
budget. -/

namespace IncrementalCodec

variable (codec : IncrementalCodec)

def run : codec.Decoding → codec.Encoding → List UInt8 →
    Option (List UInt8 × codec.Decoding × codec.Encoding)
  | decoding, encoding, [] => some ([], decoding, encoding)
  | decoding, encoding, byte :: rest =>
      match codec.decode decoding byte with
      | none => none
      | some (decoded, decoding) =>
          match codec.encode encoding decoded with
          | none => none
          | some (bytes, encoding) =>
              (run decoding encoding rest).map fun result =>
                (bytes ++ result.1, result.2)

theorem run_append (decoding : codec.Decoding) (encoding : codec.Encoding)
    (left right : List UInt8) :
    codec.run decoding encoding (left ++ right) =
      (codec.run decoding encoding left).bind fun first =>
        (codec.run first.2.1 first.2.2 right).map fun second =>
          (first.1 ++ second.1, second.2) := by
  induction left generalizing decoding encoding with
  | nil => cases found : codec.run decoding encoding right <;> simp [run, found]
  | cons byte left induction =>
      rw [List.cons_append, run, run]
      cases codec.decode decoding byte with
      | none => rfl
      | some result =>
          obtain ⟨decoded, decoding⟩ := result
          dsimp only
          cases codec.encode encoding decoded with
          | none => rfl
          | some result =>
              obtain ⟨bytes, encoding⟩ := result
              dsimp only
              rw [induction]
              cases codec.run decoding encoding left with
              | none => rfl
              | some first =>
                  cases found : codec.run first.2.1 first.2.2 right <;> simp [found]

end IncrementalCodec

/-- A sink shows a source, which ends with a character, as these bytes, but for what
its encoder keeps back. -/
def LineSettings.Shows (settings : LineSettings) (source shown kept : List UInt8) :
    Prop :=
  if settings.isTextSink then
    ∃ decoding encoding,
      settings.codec.run settings.codec.decoder settings.codec.encoder source =
          some (shown, decoding, encoding) ∧
        settings.codec.holdsBytes decoding = false ∧
        settings.codec.flush encoding = kept
  else shown = source ∧ kept = []

theorem LineSettings.Shows.unique {settings : LineSettings}
    {source shown kept other held : List UInt8} (first : settings.Shows source shown kept)
    (second : settings.Shows source other held) : shown = other ∧ kept = held := by
  unfold LineSettings.Shows at first second
  split at first
  next text =>
    rw [if_pos text] at second
    obtain ⟨_, _, ran, _, rfl⟩ := first
    obtain ⟨_, _, again, _, rfl⟩ := second
    cases ran.symm.trans again
    exact ⟨rfl, rfl⟩
  next bytes =>
    rw [if_neg bytes] at second
    exact ⟨first.1.trans second.1.symm, first.2.trans second.2.symm⟩

theorem run_hushed (codec : IncrementalCodec) (decoding : codec.Decoding)
    (encoding : codec.Encoding) (bytes : List UInt8) :
    codec.hushed.run decoding encoding bytes = codec.run decoding encoding bytes := by
  induction bytes generalizing decoding encoding with
  | nil => rfl
  | cons byte bytes induction =>
      have decodes : codec.hushed.decode decoding byte = codec.decode decoding byte := rfl
      simp only [IncrementalCodec.run, decodes]
      cases codec.decode decoding byte with
      | none => rfl
      | some result =>
          have encodes : codec.hushed.encode encoding result.1 = codec.encode encoding result.1 :=
            rfl
          simp only [encodes]
          cases codec.encode encoding result.1 with
          | none => rfl
          | some coded => exact congrArg (Option.map _) (induction result.2 coded.2)

/-- The sort of an error does not matter to what is shown. -/
theorem hushed_shows {settings : LineSettings} {source shown kept : List UInt8} :
    settings.hushed.Shows source shown kept ↔ settings.Shows source shown kept := by
  have same : settings.hushed.codec.run settings.hushed.codec.decoder
      settings.hushed.codec.encoder source =
        settings.codec.run settings.codec.decoder settings.codec.encoder source :=
    run_hushed settings.codec _ _ source
  unfold LineSettings.Shows
  rw [same]
  exact Iff.rfl

theorem LineSettings.shows_nil (settings : LineSettings) : settings.Shows [] [] [] := by
  unfold LineSettings.Shows
  split
  next =>
    exact ⟨_, _, rfl, settings.codec.decoder_fresh, settings.codec.encoder_fresh⟩
  next => exact ⟨rfl, rfl⟩

/-- The longest whole-character prefix of a line that a sink shows within a budget. -/
structure LongestPrefix (settings : LineSettings) (line : List UInt8) (budget : Nat)
    (retained encoded : List UInt8) : Prop where
  isPrefix : retained <+: line
  whole : ∃ kept, settings.Shows retained encoded kept
  fits : encoded.length ≤ budget
  longest : ∀ other shown kept, other <+: line → settings.Shows other shown kept →
    shown.length ≤ budget → other.length ≤ retained.length

theorem LongestPrefix.mono {settings : LineSettings} {line : List UInt8}
    {budget larger : Nat} {retained encoded other shown : List UInt8}
    (first : LongestPrefix settings line budget retained encoded)
    (second : LongestPrefix settings line larger other shown) (le : budget ≤ larger) :
    retained.length ≤ other.length := by
  obtain ⟨kept, shows⟩ := first.whole
  exact second.longest retained encoded kept first.isPrefix shows (first.fits.trans le)

theorem LongestPrefix.unique {settings : LineSettings} {line : List UInt8} {budget : Nat}
    {cut other : List UInt8 × List UInt8}
    (first : LongestPrefix settings line budget cut.1 cut.2)
    (second : LongestPrefix settings line budget other.1 other.2) : cut = other := by
  have lengths : cut.1.length = other.1.length :=
    Nat.le_antisymm (first.mono second (Nat.le_refl _)) (second.mono first (Nat.le_refl _))
  have retained : cut.1 = other.1 :=
    (List.prefix_of_prefix_length_le first.isPrefix second.isPrefix lengths.le).eq_of_length
      lengths
  obtain ⟨_, shows⟩ := first.whole
  obtain ⟨_, again⟩ := second.whole
  rw [← retained] at again
  exact Prod.ext retained (shows.unique again).1

section Scan

variable {codec : IncrementalCodec} {budget : Nat}

def textSettings (codec : IncrementalCodec) : LineSettings :=
  ⟨codec, true⟩

theorem textSettings_shows {source shown kept : List UInt8} :
    (textSettings codec).Shows source shown kept ↔ ∃ decoding encoding,
      codec.run codec.decoder codec.encoder source = some (shown, decoding, encoding) ∧
        codec.holdsBytes decoding = false ∧ codec.flush encoding = kept :=
  Iff.rfl

/-- Where the scan stands after the bytes it has read. -/
structure Scanned (codec : IncrementalCodec) (budget : Nat) (done : List UInt8)
    (scan : PrefixScan codec) : Prop where
  ran : codec.run codec.decoder codec.encoder done =
    some (scan.encoded, scan.decoding, scan.encoding)
  length : scan.length = done.length
  safe : LongestPrefix (textSettings codec) done budget
    (done.take scan.safeSourceLength) (scan.encoded.take scan.safeEncodedLength)
  safeSource : scan.safeSourceLength ≤ done.length
  safeEncoded : scan.safeEncodedLength ≤ scan.encoded.length

theorem scanned_initial : Scanned codec budget [] (.initial codec) where
  ran := rfl
  length := rfl
  safe :=
    { isPrefix := List.prefix_rfl
      whole := ⟨[], (textSettings codec).shows_nil⟩
      fits := Nat.zero_le _
      longest := fun _ _ _ isPrefix _ _ => isPrefix.length_le }
  safeSource := Nat.le_refl _
  safeEncoded := Nat.le_refl _

/-- Nothing longer than what was read fits: the safe prefix is that of the line. -/
theorem Scanned.ended {done rest : List UInt8} {scan : PrefixScan codec}
    (scanned : Scanned codec budget done scan)
    (beyond : ∀ more shown kept, more <+: rest → more ≠ [] →
      (textSettings codec).Shows (done ++ more) shown kept → budget < shown.length) :
    LongestPrefix (textSettings codec) (done ++ rest) budget
      ((done ++ rest).take scan.safeSourceLength)
      (scan.encoded.take scan.safeEncodedLength) := by
  have same : (done ++ rest).take scan.safeSourceLength =
      done.take scan.safeSourceLength :=
    List.take_append_of_le_length scanned.safeSource
  rw [same]
  refine {
    isPrefix := scanned.safe.isPrefix.trans (List.prefix_append _ _)
    whole := scanned.safe.whole
    fits := scanned.safe.fits
    longest := ?_ }
  intro other shown kept isPrefix shows fits
  rcases List.prefix_or_prefix_of_prefix isPrefix (List.prefix_append done rest) with
    inside | outside
  · exact scanned.safe.longest other shown kept inside shows fits
  · obtain ⟨more, rfl⟩ := outside
    have further : more <+: rest := List.prefix_append_right_inj done |>.mp isPrefix
    by_cases empty : more = []
    · subst empty
      rw [List.append_nil] at shows ⊢
      exact scanned.safe.longest done shown kept List.prefix_rfl shows fits
    · exact absurd fits (Nat.not_le_of_lt (beyond more shown kept further empty shows))

theorem run_concat_error {done : List UInt8} {encoded : List UInt8}
    {decoding : codec.Decoding} {encoding : codec.Encoding} {byte : UInt8}
    (ran : codec.run codec.decoder codec.encoder done = some (encoded, decoding, encoding))
    (fails : codec.run decoding encoding [byte] = none) {more : List UInt8}
    (isPrefix : [byte] <+: more) :
    codec.run codec.decoder codec.encoder (done ++ more) = none := by
  obtain ⟨rest, rfl⟩ := isPrefix
  rw [codec.run_append, ran, Option.bind_some, codec.run_append, fails]
  rfl

theorem prefix_of_ne_nil {more rest : List UInt8} {byte : UInt8}
    (isPrefix : more <+: byte :: rest) (nonempty : more ≠ []) : [byte] <+: more := by
  cases more with
  | nil => exact absurd rfl nonempty
  | cons first more =>
      obtain ⟨rfl, _⟩ := List.cons_prefix_cons.mp isPrefix
      exact ⟨more, rfl⟩

theorem Scanned.failed {done rest : List UInt8} {scan : PrefixScan codec}
    (scanned : Scanned codec budget done scan) {byte : UInt8}
    (fails : codec.run scan.decoding scan.encoding [byte] = none) :
    LongestPrefix (textSettings codec) (done ++ byte :: rest) budget
      ((done ++ byte :: rest).take scan.safeSourceLength)
      (scan.encoded.take scan.safeEncodedLength) := by
  apply scanned.ended
  intro more shown kept isPrefix nonempty shows
  obtain ⟨_, _, ran, _⟩ := textSettings_shows.mp shows
  rw [run_concat_error scanned.ran fails (prefix_of_ne_nil isPrefix nonempty)] at ran
  cases ran

theorem length_le_of_run_append {done more encoded shown : List UInt8}
    {decoding last : codec.Decoding} {encoding final : codec.Encoding}
    (ran : codec.run codec.decoder codec.encoder done = some (encoded, decoding, encoding))
    (further : codec.run codec.decoder codec.encoder (done ++ more) =
      some (shown, last, final)) : encoded.length ≤ shown.length := by
  rw [codec.run_append, ran, Option.bind_some, Option.map_eq_some_iff] at further
  obtain ⟨⟨rest, coders⟩, _, equal⟩ := further
  cases equal
  rw [List.length_append]
  exact Nat.le_add_right _ _

theorem take_concat_of_le {done : List UInt8} {n : Nat} (le : n ≤ done.length)
    (byte : UInt8) : (done ++ [byte]).take n = done.take n :=
  List.take_append_of_le_length le

/-- The byte read is within a character: the safe prefix stays. -/
theorem Scanned.within {done : List UInt8} {scan : PrefixScan codec}
    (scanned : Scanned codec budget done scan) {byte : UInt8} {bytes : List UInt8}
    {decoding : codec.Decoding} {encoding : codec.Encoding}
    (ran : codec.run scan.decoding scan.encoding [byte] = some (bytes, decoding, encoding))
    (held : codec.holdsBytes decoding = true) :
    Scanned codec budget (done ++ [byte]) { scan with
      decoding
      encoding
      encoded := scan.encoded ++ bytes
      length := scan.length + 1 } := by
  have whole : codec.run codec.decoder codec.encoder (done ++ [byte]) =
      some (scan.encoded ++ bytes, decoding, encoding) := by
    rw [codec.run_append, scanned.ran, Option.bind_some, ran]
    rfl
  have kept : (scan.encoded ++ bytes).take scan.safeEncodedLength =
      scan.encoded.take scan.safeEncodedLength :=
    List.take_append_of_le_length scanned.safeEncoded
  refine {
    ran := whole
    length := by simp [scanned.length]
    safe := ?_
    safeSource := by
      rw [List.length_append]
      exact Nat.le_add_right_of_le scanned.safeSource
    safeEncoded := by
      rw [List.length_append]
      exact Nat.le_add_right_of_le scanned.safeEncoded }
  dsimp only
  rw [take_concat_of_le scanned.safeSource, kept]
  refine { scanned.safe with
    isPrefix := scanned.safe.isPrefix.trans (List.prefix_append _ _)
    longest := ?_ }
  intro other shown kept isPrefix shows fits
  rcases List.prefix_concat_iff.mp isPrefix with rfl | inside
  · obtain ⟨_, _, again, complete, _⟩ := textSettings_shows.mp shows
    cases whole.symm.trans again
    rw [held] at complete
    cases complete
  · exact scanned.safe.longest other shown kept inside shows fits

/-- The byte read completes a character that still fits. -/
theorem Scanned.complete {done : List UInt8} {scan : PrefixScan codec}
    (scanned : Scanned codec budget done scan) {byte : UInt8} {bytes : List UInt8}
    {decoding : codec.Decoding} {encoding : codec.Encoding}
    (ran : codec.run scan.decoding scan.encoding [byte] = some (bytes, decoding, encoding))
    (free : codec.holdsBytes decoding = false)
    (fits : (scan.encoded ++ bytes).length ≤ budget) :
    Scanned codec budget (done ++ [byte]) ⟨decoding, encoding, scan.encoded ++ bytes,
      scan.length + 1, scan.length + 1, (scan.encoded ++ bytes).length⟩ := by
  have whole : codec.run codec.decoder codec.encoder (done ++ [byte]) =
      some (scan.encoded ++ bytes, decoding, encoding) := by
    rw [codec.run_append, scanned.ran, Option.bind_some, ran]
    rfl
  have length : scan.length + 1 = (done ++ [byte]).length := by
    simp [scanned.length]
  refine {
    ran := whole
    length := length
    safe := ?_
    safeSource := Nat.le_of_eq length
    safeEncoded := Nat.le_refl _ }
  dsimp only
  rw [length, List.take_length, List.take_length]
  exact {
    isPrefix := List.prefix_rfl
    whole := ⟨_, textSettings_shows.mpr ⟨_, _, whole, free, rfl⟩⟩
    fits := fits
    longest := fun _ _ _ isPrefix _ _ => isPrefix.length_le }

theorem Scanned.overflowed {done rest : List UInt8} {scan : PrefixScan codec}
    (scanned : Scanned codec budget done scan) {byte : UInt8} {bytes : List UInt8}
    {decoding : codec.Decoding} {encoding : codec.Encoding}
    (ran : codec.run scan.decoding scan.encoding [byte] = some (bytes, decoding, encoding))
    (beyond : budget < (scan.encoded ++ bytes).length) :
    LongestPrefix (textSettings codec) (done ++ byte :: rest) budget
      ((done ++ byte :: rest).take scan.safeSourceLength)
      ((scan.encoded ++ bytes).take scan.safeEncodedLength) := by
  have whole : codec.run codec.decoder codec.encoder (done ++ [byte]) =
      some (scan.encoded ++ bytes, decoding, encoding) := by
    rw [codec.run_append, scanned.ran, Option.bind_some, ran]
    rfl
  rw [List.take_append_of_le_length scanned.safeEncoded]
  apply scanned.ended
  intro more shown kept isPrefix nonempty shows
  obtain ⟨tail, rfl⟩ := prefix_of_ne_nil isPrefix nonempty
  obtain ⟨_, _, further, _⟩ := textSettings_shows.mp shows
  rw [← List.append_assoc] at further
  exact Nat.lt_of_lt_of_le beyond (length_le_of_run_append whole further)

theorem scanPrefix_longest {done : List UInt8} {scan after : PrefixScan codec}
    (scanned : Scanned codec budget done scan) {rest : List UInt8}
    (scans : scanPrefix codec budget scan rest = some after) :
    LongestPrefix (textSettings codec) (done ++ rest) budget
      ((done ++ rest).take after.safeSourceLength)
      (after.encoded.take after.safeEncodedLength) := by
  induction rest generalizing done scan with
  | nil =>
      cases scans
      rw [List.append_nil]
      exact scanned.safe
  | cons byte rest induction =>
      have onward : done ++ byte :: rest = (done ++ [byte]) ++ rest := by simp
      rw [scanPrefix] at scans
      cases decoded : codec.decode scan.decoding byte with
      | none =>
          have fails : codec.run scan.decoding scan.encoding [byte] = none := by
            simp [IncrementalCodec.run, decoded]
          simp only [decoded] at scans
          split at scans
          next => cases scans
          next =>
            cases scans
            exact scanned.failed fails
      | some result =>
          obtain ⟨text, decoding⟩ := result
          simp only [decoded] at scans
          cases encoded : codec.encode scan.encoding text with
          | none =>
              have fails : codec.run scan.decoding scan.encoding [byte] = none := by
                simp [IncrementalCodec.run, decoded, encoded]
              simp only [encoded] at scans
              split at scans
              next => cases scans
              next =>
                cases scans
                exact scanned.failed fails
          | some result =>
              obtain ⟨bytes, encoding⟩ := result
              have ran : codec.run scan.decoding scan.encoding [byte] =
                  some (bytes, decoding, encoding) := by
                simp [IncrementalCodec.run, decoded, encoded]
              simp only [encoded] at scans
              split at scans
              next held =>
                rw [onward]
                exact induction (scanned.within ran held) scans
              next free =>
                split at scans
                next beyond =>
                  cases scans
                  exact scanned.overflowed ran beyond
                next fits =>
                  rw [onward]
                  exact induction (scanned.complete ran (by simpa using free)
                    (Nat.le_of_not_lt fits)) scans

/-- A scan that reads further meets whatever error one that reads less does. -/
theorem scanPrefix_isSome_of_le {larger : Nat} (le : budget ≤ larger)
    {scan : PrefixScan codec} {line : List UInt8}
    (scans : (scanPrefix codec larger scan line).isSome = true) :
    (scanPrefix codec budget scan line).isSome = true := by
  induction line generalizing scan with
  | nil => rfl
  | cons byte rest induction =>
      rw [scanPrefix] at scans ⊢
      cases decoded : codec.decode scan.decoding byte with
      | none => simpa only [decoded] using scans
      | some result =>
          simp only [decoded] at scans ⊢
          cases encoded : codec.encode scan.encoding result.1 with
          | none => simpa only [encoded] using scans
          | some coded =>
              simp only [encoded] at scans ⊢
              split
              next held =>
                rw [if_pos held] at scans
                exact induction scans
              next free =>
                rw [if_neg free] at scans
                split
                next => rfl
                next fits =>
                  rw [if_neg (mt (Nat.lt_of_le_of_lt le) fits)] at scans
                  exact induction scans

/-- The text of a marker is read from the start without an error. -/
theorem scanPrefix_marker {scan : PrefixScan codec} (decoding : scan.decoding = codec.decoder)
    (encoding : scan.encoding = codec.encoder) {line : List UInt8}
    (marker : ∀ byte ∈ line, isMarkerByte byte) :
    (scanPrefix codec budget scan line).isSome = true := by
  induction line generalizing scan with
  | nil => rfl
  | cons byte rest induction =>
      obtain ⟨first, rest⟩ := List.forall_mem_cons.mp marker
      rw [scanPrefix, decoding, encoding, codec.decode_marker byte first]
      simp only [codec.encode_marker byte first, codec.decoder_fresh, Bool.false_eq_true,
        if_false]
      split
      next => rfl
      next => exact induction rfl rfl rest

theorem scanPrefix_isSome (heeded : codec.Heeded) (scan : PrefixScan codec)
    (line : List UInt8) : (scanPrefix codec budget scan line).isSome = true := by
  induction line generalizing scan with
  | nil => rfl
  | cons byte rest induction =>
      rw [scanPrefix]
      split
      next => rw [heeded.decode, if_neg Bool.false_ne_true, Option.isSome_some]
      next =>
        split
        next => rw [heeded.encode, if_neg Bool.false_ne_true, Option.isSome_some]
        next =>
          dsimp only
          split
          next => exact induction _
          next =>
            split
            next => rfl
            next => exact induction _

end Scan

theorem encodePrefix_longest {settings : LineSettings} {line : List UInt8} {budget : Nat}
    {cut : List UInt8 × List UInt8} (found : encodePrefix line budget settings = some cut) :
    LongestPrefix settings line budget cut.1 cut.2 := by
  obtain ⟨codec, isTextSink⟩ := settings
  unfold encodePrefix at found
  cases isTextSink with
  | true =>
      obtain ⟨scan, scans, rfl⟩ := Option.map_eq_some_iff.mp found
      have longest := scanPrefix_longest (@scanned_initial codec budget) scans
      rwa [List.nil_append] at longest
  | false =>
      cases found
      refine {
        isPrefix := List.take_prefix _ _
        whole := ⟨[], rfl, rfl⟩
        fits := List.length_take_le _ _
        longest := ?_ }
      intro other shown kept isPrefix shows fits
      obtain ⟨rfl, _⟩ := shows
      exact List.length_take ▸ Nat.le_min.mpr ⟨fits, isPrefix.length_le⟩

/-- A larger budget is no help against an error. -/
theorem encodePrefix_isSome_of_le {settings : LineSettings} {line : List UInt8}
    {budget larger : Nat} (le : budget ≤ larger)
    (cuts : (encodePrefix line larger settings).isSome = true) :
    (encodePrefix line budget settings).isSome = true := by
  unfold encodePrefix at cuts ⊢
  split
  next text =>
    rw [if_pos text, Option.isSome_map] at cuts
    rw [Option.isSome_map]
    exact scanPrefix_isSome_of_le le cuts
  next => rfl

theorem encodePrefix_isSome (line : List UInt8) (budget : Nat) (settings : EchoSettings) :
    (encodePrefix line budget settings.toLineSettings).isSome = true := by
  unfold encodePrefix
  split
  next => rw [Option.isSome_map, scanPrefix_isSome settings.heeded]
  next => rfl

/-- The prefix and its bytes, where every error is heeded. -/
def cutPrefix (line : List UInt8) (budget : Nat) (settings : EchoSettings) :
    List UInt8 × List UInt8 :=
  (encodePrefix line budget settings.toLineSettings).get (encodePrefix_isSome _ _ _)

theorem encodePrefix_marker {line : List UInt8} (marker : ∀ byte ∈ line, isMarkerByte byte)
    (budget : Nat) (settings : LineSettings) :
    (encodePrefix line budget settings).isSome = true := by
  unfold encodePrefix
  split
  next => rw [Option.isSome_map, scanPrefix_marker rfl rfl marker]
  next => rfl

theorem encodePrefix_eq (line : List UInt8) (budget : Nat) (settings : EchoSettings) :
    encodePrefix line budget settings.toLineSettings =
      some (cutPrefix line budget settings) :=
  (Option.some_get _).symm

theorem cutPrefix_longest (line : List UInt8) (budget : Nat) (settings : EchoSettings) :
    LongestPrefix settings.toLineSettings line budget (cutPrefix line budget settings).1
      (cutPrefix line budget settings).2 :=
  encodePrefix_longest (encodePrefix_eq line budget settings)

theorem hushed_longest {settings : LineSettings} {line retained encoded : List UInt8}
    {budget : Nat}
    (longest : LongestPrefix settings.hushed.toLineSettings line budget retained encoded) :
    LongestPrefix settings line budget retained encoded := by
  obtain ⟨isPrefix, whole, fits, longest⟩ := longest
  simp only [hushed_shows] at whole longest
  exact ⟨isPrefix, whole, fits, longest⟩

/-- A prefix that is found is the one that is found when every error is heeded. -/
theorem encodePrefix_hushed {line : List UInt8} {budget : Nat} {settings : LineSettings}
    {cut : List UInt8 × List UInt8} (found : encodePrefix line budget settings = some cut) :
    cut = cutPrefix line budget settings.hushed :=
  (encodePrefix_longest found).unique (hushed_longest (cutPrefix_longest _ _ _))

end Cuprum.BoundedEcho
