import Cuprum.BoundedEcho.Limiter

namespace Cuprum.BoundedEcho

open Codec Text Echo

/-! A stateless codec, decoded from the bytes it holds and encoded character by
character. -/

theorem ascii_of_isMarkerByte {byte : UInt8} (marker : isMarkerByte byte = true) :
    byte.toNat < 0x80 := by
  simp only [isMarkerByte, Bool.or_eq_true, beq_iff_eq, Bool.and_eq_true,
    decide_eq_true_eq, UInt8.le_iff_toNat_le] at marker
  rcases marker with ((((rfl | rfl) | rfl) | rfl) | digit) | letter
  · decide
  · decide
  · decide
  · decide
  · exact Nat.lt_of_le_of_lt digit.2 (by decide)
  · exact Nat.lt_of_le_of_lt letter.2 (by decide)

theorem run_ascii (codec : EchoCodec) (handler : List UInt8 → Option (List CodePoint))
    {byte : UInt8} (ascii : byte.toNat < 0x80) :
    codec.decoder.run handler [byte] = some ([.ofNat byte.toNat], []) := by
  rw [codec.decoder.run_of_symbol (codec.read_ascii byte ascii [])]
  simp [codec.decoder.run_of_truncated codec.decoder.read_nil]

def incremental (codec : EchoCodec) (errors : ErrorPolicy) : IncrementalCodec where
  Decoding := List UInt8
  Encoding := Unit
  decoder := []
  encoder := ()
  decode held byte := codec.decoder.run errors.decode (held ++ [byte])
  decodeEscapes held byte := errors.decodeEscapes (held ++ [byte])
  holdsBytes held := held != []
  encode _ text := (encodeText codec errors text).map (·, ())
  encodeEscapes _ text := errors.encodeEscapes text
  flush _ := []
  encodeStrict := encodeText codec strictErrors
  encodeText := encodeText codec errors
  decoder_fresh := rfl
  encoder_fresh := rfl
  decode_marker byte marker :=
    run_ascii codec errors.decode (ascii_of_isMarkerByte marker)
  encode_marker byte marker := by
    have encoded := @encodeText_ascii codec errors [byte]
      (by simpa using ascii_of_isMarkerByte marker)
    exact congrArg (Option.map (·, ())) encoded
  encodeText_marker bytes marker :=
    encodeText_ascii codec errors fun byte member => ascii_of_isMarkerByte (marker byte member)
  encodeStrict_marker := by
    refine ⟨encodeText codec strictErrors (codePoints "… "), fun bytes marker => ?_⟩
    have encoded := encodeText_ascii codec strictErrors fun byte member =>
      ascii_of_isMarkerByte (marker byte member)
    rw [encodeText_append, encoded]
    cases encodeText codec strictErrors (codePoints "… ") <;> rfl

def incrementally (settings : EchoEncoding) : LineSettings :=
  ⟨incremental settings.encoding settings.errors, settings.isTextSink⟩

def heedfully (settings : EchoEncoding) (heeded : settings.errors.Heeded) : EchoSettings :=
  ⟨incrementally settings, fun _ _ => heeded.decode _, fun _ text => heeded.encode text⟩

def scanned (settings : EchoEncoding) (scan : Echo.PrefixScan) :
    PrefixScan (incremental settings.encoding settings.errors) :=
  ⟨scan.held, (), scan.encoded, scan.length, scan.safeSourceLength, scan.safeEncodedLength⟩

theorem scanPrefix_scanned (settings : EchoEncoding) (budget : Nat)
    (scan : Echo.PrefixScan) (line : List UInt8) :
    scanPrefix (incremental settings.encoding settings.errors) budget
        (scanned settings scan) line =
      (Echo.scanPrefix settings budget scan line).map (scanned settings) := by
  induction line generalizing scan with
  | nil => rfl
  | cons byte rest induction =>
      have decodes : (incremental settings.encoding settings.errors).decode
          (scanned settings scan).decoding byte =
            settings.encoding.decoder.run settings.errors.decode (scan.held ++ [byte]) :=
        rfl
      rw [scanPrefix, Echo.scanPrefix, decodes]
      cases settings.encoding.decoder.run settings.errors.decode (scan.held ++ [byte]) with
      | none =>
          have escapes : (incremental settings.encoding settings.errors).decodeEscapes
              (scanned settings scan).decoding byte =
                settings.errors.decodeEscapes (scan.held ++ [byte]) :=
            rfl
          dsimp only
          rw [escapes]
          split <;> rfl
      | some result =>
          obtain ⟨decoded, held⟩ := result
          have encodes : (incremental settings.encoding settings.errors).encode
              (scanned settings scan).encoding decoded =
                (encodeText settings.encoding settings.errors decoded).map (·, ()) :=
            rfl
          dsimp only
          rw [encodes]
          cases encodeText settings.encoding settings.errors decoded with
          | none =>
              have escapes : (incremental settings.encoding settings.errors).encodeEscapes
                  (scanned settings scan).encoding decoded =
                    settings.errors.encodeEscapes decoded :=
                rfl
              dsimp only [Option.map_none]
              rw [escapes]
              split <;> rfl
          | some bytes =>
              have within := induction { scan with
                held
                encoded := scan.encoded ++ bytes
                length := scan.length + 1 }
              have complete := induction ⟨held, scan.encoded ++ bytes, scan.length + 1,
                scan.length + 1, (scan.encoded ++ bytes).length⟩
              dsimp only [Option.map_some]
              by_cases holds : held ≠ []
              · rw [if_pos holds, ← within]
                exact if_pos (bne_iff_ne.mpr holds)
              · rw [if_neg holds]
                refine (if_neg (mt bne_iff_ne.mp holds)).trans ?_
                by_cases beyond : budget < (scan.encoded ++ bytes).length
                · rw [if_pos beyond]
                  exact if_pos beyond
                · rw [if_neg beyond, ← complete]
                  exact if_neg beyond

theorem encodePrefix_incrementally (line : List UInt8) (budget : Nat)
    (settings : EchoEncoding) :
    encodePrefix line budget (incrementally settings) =
      Echo.encodePrefix line budget settings := by
  have scans := scanPrefix_scanned settings budget ⟨[], [], 0, 0, 0⟩ line
  unfold encodePrefix Echo.encodePrefix
  by_cases text : settings.isTextSink = true
  · rw [if_pos text]
    refine (if_pos text).trans ?_
    refine (congrArg (Option.map fun scan : PrefixScan (incremental settings.encoding
      settings.errors) => (line.take scan.safeSourceLength,
        scan.encoded.take scan.safeEncodedLength)) scans).trans ?_
    rw [Option.map_map]
    rfl
  · rw [if_neg text]
    exact if_neg text

theorem fitMarker_incrementally (marker : List UInt8) (budget dropped : Nat)
    (settings : EchoEncoding) :
    fitMarker marker budget dropped (incrementally settings) =
      Echo.fitMarker marker budget dropped settings := by
  have spelled : (incrementally settings).codec.encodeText =
      encodeText settings.encoding settings.errors :=
    rfl
  unfold fitMarker Echo.fitMarker
  simp only [encodePrefix_incrementally, spelled]
  cases encodeText settings.encoding settings.errors (asciiTruncationMarkerTemplate dropped) with
  | none => rfl
  | some fallback =>
      cases cut : Echo.encodePrefix fallback budget settings <;> simp [cut]

theorem boundedPrefix_incrementally (limiter : EchoLineLimiter) (line : List UInt8)
    (finalization : LineFinalization) (settings : EchoEncoding) (dropped passes : Nat) :
    (boundedPrefix limiter line finalization (incrementally settings) dropped passes).map
        (fun search => (search.retained, search.encoded)) =
      limiter.boundedPrefix line finalization settings dropped passes := by
  induction passes generalizing dropped with
  | zero => rfl
  | succ passes induction =>
      have marked : truncationMarker dropped (incrementally settings).codec =
          Echo.truncationMarker dropped settings.encoding settings.errors :=
        rfl
      rw [boundedPrefix, EchoLineLimiter.boundedPrefix, marked]
      cases Echo.truncationMarker dropped settings.encoding settings.errors with
      | none => rfl
      | some marker =>
          simp only [encodePrefix_incrementally]
          cases Echo.encodePrefix line
              (limiter.maxLineBytes - finalization.ending.length - marker.length)
              settings with
          | none => rfl
          | some found =>
              obtain ⟨retained, encoded⟩ := found
              dsimp only
              split
              next same => simp [same]
              next moved =>
                split
                next last => simp [last]
                next further =>
                  simp only [moved, further, or_self, if_false, Option.map_map, ← induction]
                  rfl

/-- On a stateless codec a line is finished as the stateless limiter finishes it. -/
theorem finishLine_incrementally (limiter : EchoLineLimiter) (ending : List UInt8)
    (settings : EchoEncoding) :
    (finishLine limiter ending (incrementally settings)).1.map
        (fun line => ⟨line.payload, line.droppedBytes, line.sourceBytes⟩) =
      (limiter.finishLine ending settings).1 := by
  simp only [finishLine, EchoLineLimiter.finishLine, finalizationOf]
  by_cases fits : limiter.sourceLineBytes + ending.length ≤ limiter.maxLineBytes
  · simp [if_pos fits, FinishedLine.payload]
  · rw [if_neg fits, if_neg fits, ← boundedPrefix_incrementally]
    generalize boundedPrefix limiter limiter.line _ (incrementally settings) _ 16 = found
    cases found with
    | none => rfl
    | some search =>
        have marked (dropped : Nat) : truncationMarker dropped (incrementally settings).codec =
            Echo.truncationMarker dropped settings.encoding settings.errors :=
          rfl
        simp only [Option.map_some, Option.bind_eq_bind, Option.bind_some, marked,
          fitMarker_incrementally]
        generalize Echo.truncationMarker _ settings.encoding settings.errors = marker
        cases marker with
        | none => rfl
        | some marker =>
            simp only [Option.bind_some]
            generalize Echo.fitMarker marker _ _ settings = fitted
            cases fitted <;> rfl

end Cuprum.BoundedEcho
