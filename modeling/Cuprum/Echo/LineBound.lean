import Cuprum.Echo.Stream
import Cuprum.Echo.Utf8

namespace Cuprum.Echo

open Codec Text

/-! What a sink shows for the bytes of one line. -/

def written (config : EchoConfig) (bytes : List UInt8) :
    Option (List UInt8 × List UInt8) :=
  if config.hasBuffer then some (bytes, [])
  else
    (config.encoding.decoder.run config.viewErrors.decode bytes).bind fun result =>
      (encodeAll config.sinkEncode result.1).map fun shown =>
        (shown, result.2)

def flushed (config : EchoConfig) (held : List UInt8) : List UInt8 :=
  if held = [] then []
  else
    ((config.viewErrors.decode held).bind
      (encodeAll config.sinkEncode)).getD []

/-- The bytes a sink shows for these, once its decoder is flushed. -/
def mirrored (config : EchoConfig) (bytes : List UInt8) : List UInt8 :=
  match written config bytes with
  | none => []
  | some (shown, held) => shown ++ flushed config held

def linePayload (config : EchoConfig) (maxLineBytes : Nat)
    (line : List UInt8 × List UInt8) : Option (List UInt8) :=
  ((fedLimiter maxLineBytes line.1 false).finishLine line.2 config.settings).1.map
    (·.payload)

def mirroredLines (config : EchoConfig) (maxLineBytes : Nat) :
    List (List UInt8 × List UInt8) → List (List UInt8)
  | [] => []
  | line :: lines =>
      match linePayload config maxLineBytes line with
      | none => []
      | some payload =>
          if (written config payload).isSome then
            mirrored config payload :: mirroredLines config maxLineBytes lines
          else []

/-- No byte string is shown as a longer one. -/
def NonExpanding (config : EchoConfig) : Prop :=
  ∀ bytes, (mirrored config bytes).length ≤ bytes.length

/-- A line feed completes or breaks whatever the decoder was holding. -/
theorem run_lineFeed_held (codec : EchoCodec)
    {handler : List UInt8 → Option (List CodePoint)} {bytes held : List UInt8}
    {text : List CodePoint}
    (decoded : codec.decoder.run handler (bytes ++ [lineFeed]) = some (text, held)) :
    held = [] := by
  induction size : bytes.length using Nat.strongRecOn generalizing bytes text with
  | ind n induction =>
      have shorter : ∀ width, 0 < width → width ≤ bytes.length →
          (∃ rest, codec.decoder.run handler ((bytes ++ [lineFeed]).drop width) =
            some (rest, held)) → held = [] := by
        intro width positive fits
        rintro ⟨rest, after⟩
        rw [List.drop_append_of_le_length fits] at after
        exact induction _ (by rw [List.length_drop]; omega) after rfl
      cases found : codec.decoder.read bytes with
      | symbol value width =>
          have widths := codec.decoder.read_symbol found
          have stable := codec.stable.symbol [lineFeed] found
          exact shorter width widths.1 widths.2
            (codec.decoder.tail_of_symbol stable decoded)
      | malformed width =>
          have widths := codec.decoder.read_malformed found
          have stable := codec.stable.malformed [lineFeed] found
          exact shorter width widths.1 widths.2
            (codec.decoder.tail_of_malformed stable decoded)
      | truncated =>
          by_cases empty : bytes = []
          · subst empty
            have feed := codec.read_ascii lineFeed (by decide) []
            obtain ⟨rest, after⟩ := codec.decoder.tail_of_symbol feed decoded
            rw [List.drop_one, List.tail_cons,
              codec.decoder.run_of_truncated codec.decoder.read_nil] at after
            cases after
            rfl
          · obtain ⟨width, short, broken⟩ := codec.read_lineFeed [] found empty
            exact shorter width (codec.decoder.read_malformed broken).1 short
              (codec.decoder.tail_of_malformed broken decoded)

theorem written_of_buffer {config : EchoConfig} (buffer : config.hasBuffer = true)
    (bytes : List UInt8) : written config bytes = some (bytes, []) :=
  if_pos buffer

theorem written_text_iff {config : EchoConfig} (text : config.hasBuffer = false)
    {bytes shown held : List UInt8} :
    written config bytes = some (shown, held) ↔ ∃ decoded,
      config.encoding.decoder.run config.viewErrors.decode bytes =
          some (decoded, held) ∧
        encodeAll config.sinkEncode decoded = some shown := by
  simp only [written, text, Bool.false_eq_true, if_false, Option.bind_eq_some_iff,
    Option.map_eq_some_iff, Prod.mk.injEq, Prod.exists]
  constructor
  · rintro ⟨decoded, tail, run, _, encoded, rfl, rfl⟩
    exact ⟨decoded, run, encoded⟩
  · rintro ⟨decoded, run, encoded⟩
    exact ⟨decoded, held, run, shown, encoded, rfl, rfl⟩

theorem written_lineFeed_held {config : EchoConfig} {bytes shown held : List UInt8}
    (shows : written config (bytes ++ [lineFeed]) = some (shown, held)) :
    held = [] := by
  cases buffer : config.hasBuffer with
  | true =>
      rw [written_of_buffer buffer] at shows
      cases shows
      rfl
  | false =>
      obtain ⟨_, decoded, _⟩ := (written_text_iff buffer).mp shows
      exact run_lineFeed_held config.encoding decoded

theorem written_tail {config : EchoConfig} {bytes shown held : List UInt8}
    (shows : written config bytes = some (shown, held)) :
    held = [] ∨ config.hasBuffer = false ∧
      config.encoding.decoder.read held = .truncated := by
  cases buffer : config.hasBuffer with
  | true =>
      rw [written_of_buffer buffer] at shows
      cases shows
      exact .inl rfl
  | false =>
      obtain ⟨_, decoded, _⟩ := (written_text_iff buffer).mp shows
      exact .inr ⟨rfl, config.encoding.decoder.read_tail decoded⟩

theorem echoWrite_of_written {config : EchoConfig} {payload shown held : List UInt8}
    (shows : written config payload = some (shown, held))
    (done : List (List UInt8)) :
    echoWrite config ⟨[], false, false, done⟩ payload false =
      ⟨held, false, false, done ++ [shown]⟩ := by
  simp only [echoWrite, writeChunk, EchoChannel.record, Bool.false_eq_true, if_false,
    List.nil_append, false_and]
  cases buffer : config.hasBuffer with
  | true =>
      rw [written_of_buffer buffer] at shows
      cases shows
      rfl
  | false =>
      obtain ⟨text, decoded, encoded⟩ := (written_text_iff buffer).mp shows
      simp only [Bool.false_eq_true, if_false, decoded, writeText, encoded,
        EchoChannel.record]

theorem echoWrite_of_not_written {config : EchoConfig} {payload : List UInt8}
    (shows : written config payload = none) (done : List (List UInt8)) :
    Stopped (echoWrite config ⟨[], false, false, done⟩ payload false) ∧
      (echoWrite config ⟨[], false, false, done⟩ payload false).lines = done := by
  simp only [echoWrite, writeChunk, Bool.false_eq_true, if_false, List.nil_append,
    false_and]
  unfold written at shows
  split at shows
  next => cases shows
  next buffer =>
    rw [if_neg buffer]
    cases decoded : config.encoding.decoder.run config.viewErrors.decode payload with
    | none => exact ⟨.inr rfl, rfl⟩
    | some result =>
        rw [decoded, Option.bind_some, Option.map_eq_none_iff] at shows
        simp only [writeText, shows]
        exact ⟨.inl rfl, trivial⟩

theorem mirrorLine_of_payload {config : EchoConfig} {maxLineBytes : Nat}
    {line : List UInt8 × List UInt8} {payload : List UInt8}
    (finished : linePayload config maxLineBytes line = some payload)
    {channel : EchoChannel} (running : channel.raised = false) :
    mirrorLine config maxLineBytes channel line =
      echoWrite config channel payload false := by
  obtain ⟨line, found, rfl⟩ := Option.map_eq_some_iff.mp finished
  simp only [mirrorLine, running, writeFinishedEchoLine, found, Bool.false_eq_true,
    if_false]

theorem mirrorLine_of_no_payload {config : EchoConfig} {maxLineBytes : Nat}
    {line : List UInt8 × List UInt8}
    (unfinished : linePayload config maxLineBytes line = none)
    {channel : EchoChannel} (running : channel.raised = false) :
    mirrorLine config maxLineBytes channel line = { channel with raised := true } := by
  have found := Option.map_eq_none_iff.mp unfinished
  simp only [mirrorLine, running, writeFinishedEchoLine, found, Bool.false_eq_true,
    if_false]

theorem extendLast_append (done : List (List UInt8)) (shown bytes : List UInt8) :
    extendLast (done ++ [shown]) bytes = done ++ [shown ++ bytes] := by
  simp [extendLast]

theorem extendLast_nil (done : List (List UInt8)) : extendLast done [] = done := by
  rcases List.eq_nil_or_concat done with rfl | ⟨front, last, rfl⟩
  · rfl
  · rw [List.concat_eq_append, extendLast_append, List.append_nil]

/-- The flush adds to the last line what its held bytes are shown as. -/
theorem finalWrite_lines {config : EchoConfig} {held : List UInt8}
    (tail : held = [] ∨ config.hasBuffer = false ∧
      config.encoding.decoder.read held = .truncated)
    (lines : List (List UInt8)) :
    (finalWrite config ⟨held, false, false, lines⟩).lines =
      extendLast lines (flushed config held) := by
  cases buffer : config.hasBuffer with
  | true =>
      obtain rfl := tail.resolve_right (by simp [buffer])
      simp [finalWrite, buffer, flushed, extendLast_nil]
  | false =>
      have truncated : config.encoding.decoder.read held = .truncated := by
        rcases tail with rfl | ⟨_, truncated⟩
        · exact config.encoding.decoder.read_nil
        · exact truncated
      have decoded := config.encoding.decoder.run_of_truncated truncated
        config.viewErrors.decode
      simp only [finalWrite, buffer, Bool.or_self, Bool.false_eq_true, if_false,
        echoWrite, writeChunk, List.append_nil, decoded, true_and]
      by_cases empty : held = []
      · subst empty
        simp [writeText, encodeAll, EchoChannel.record, flushed]
      · rw [if_pos empty, flushed, if_neg empty]
        cases config.viewErrors.decode held with
        | none => exact (extendLast_nil lines).symm
        | some replaced =>
            simp only [List.nil_append, writeText, Option.bind_some]
            cases encodeAll config.sinkEncode replaced with
            | none => exact (extendLast_nil lines).symm
            | some bytes => rfl

theorem linePayload_eq {config : EchoConfig} {maxLineBytes : Nat}
    {line : List UInt8 × List UInt8} {payload : List UInt8}
    (finished : linePayload config maxLineBytes line = some payload)
    (exceeds : ¬ line.1.length + line.2.length ≤ maxLineBytes) :
    ∃ encoded marker, payload = encoded ++ marker ++
        (fedLimiter maxLineBytes line.1 false).keptEnding line.2 ∧
      (config.hasBuffer = false →
        Encoded config.encoding config.errors encoded ∧
          Encoded config.encoding config.errors marker) := by
  obtain ⟨finished, found, rfl⟩ := Option.map_eq_some_iff.mp finished
  obtain ⟨encoded, marker, shape, _, _, text⟩ :=
    EchoLineLimiter.finishLine_of_exceeds exceeds found
  refine ⟨encoded, marker, shape, fun noBuffer => text ?_⟩
  simp [EchoConfig.settings, noBuffer]

theorem linePayload_of_fits (config : EchoConfig) {maxLineBytes : Nat}
    {line : List UInt8 × List UInt8}
    (fits : line.1.length + line.2.length ≤ maxLineBytes) :
    linePayload config maxLineBytes line = some (line.1 ++ line.2) := by
  have whole : line.1.take maxLineBytes = line.1 :=
    List.take_of_length_le (Nat.le_of_add_right_le fits)
  have finished := @EchoLineLimiter.finishLine_of_fits
    (fedLimiter maxLineBytes line.1 false) line.2 fits config.settings
  rw [linePayload, finished]
  exact congrArg (fun content => some (content ++ line.2)) whole

theorem linePayload_length_le {config : EchoConfig} {maxLineBytes : Nat}
    {line : List UInt8 × List UInt8} {payload : List UInt8}
    (finished : linePayload config maxLineBytes line = some payload) :
    payload.length ≤ maxLineBytes := by
  obtain ⟨finished, found, rfl⟩ := Option.map_eq_some_iff.mp finished
  exact EchoLineLimiter.finishLine_payload_le (List.length_take_le' _ _) found

/-- A kept ending ends the payload. -/
theorem linePayload_ending {config : EchoConfig} {maxLineBytes : Nat}
    {line : List UInt8 × List UInt8} {payload : List UInt8}
    (finished : linePayload config maxLineBytes line = some payload)
    (kept : line.2.length ≤ maxLineBytes) : ∃ front, payload = front ++ line.2 := by
  by_cases fits : line.1.length + line.2.length ≤ maxLineBytes
  · rw [linePayload_of_fits config fits] at finished
    cases finished
    exact ⟨line.1, rfl⟩
  · obtain ⟨encoded, marker, shape, _⟩ := linePayload_eq finished fits
    rw [EchoLineLimiter.keptEnding, if_pos (by exact kept)] at shape
    exact ⟨_, shape⟩

/-- Every line but the last leaves the sink's decoder empty. -/
theorem linePayload_held {config : EchoConfig} {maxLineBytes : Nat}
    (positive : 0 < maxLineBytes) {line : List UInt8 × List UInt8}
    (terminated : Terminated line) {payload shown held : List UInt8}
    (finished : linePayload config maxLineBytes line = some payload)
    (shows : written config payload = some (shown, held)) : held = [] := by
  have lineFed : ∃ front, line.2 = front ++ [lineFeed] := by
    rcases terminated with feed | both
    · exact ⟨[], feed⟩
    · exact ⟨[carriageReturn], both⟩
  obtain ⟨front, ending⟩ := lineFed
  by_cases kept : line.2.length ≤ maxLineBytes
  · obtain ⟨content, rfl⟩ := linePayload_ending finished kept
    rw [ending, ← List.append_assoc] at shows
    exact written_lineFeed_held shows
  · have one : maxLineBytes = 1 ∧ 1 < line.2.length := by
      rcases terminated with feed | both
      · rw [feed, List.length_singleton] at kept
        omega
      · rw [both, List.length_cons, List.length_singleton] at kept ⊢
        omega
    cases buffer : config.hasBuffer with
    | true =>
        rw [written, if_pos buffer] at shows
        cases shows
        rfl
    | false =>
        obtain ⟨finished, found, rfl⟩ := Option.map_eq_some_iff.mp finished
        have dot := EchoLineLimiter.finishLine_of_one one.1 one.2
          (by simp [EchoConfig.settings, buffer]) found
        have read := config.encoding.read_ascii 0x2E (by decide) []
        rw [dot, written, if_neg (by simp [buffer]),
          config.encoding.decoder.run_of_symbol read, List.drop_one, List.tail_cons,
          config.encoding.decoder.run_of_truncated config.encoding.decoder.read_nil]
          at shows
        obtain ⟨shownDot, _, equal⟩ := Option.map_eq_some_iff.mp shows
        cases equal
        rfl

theorem foldl_mirrorLine_lines (config : EchoConfig) {maxLineBytes : Nat}
    (positive : 0 < maxLineBytes) (lines : List (List UInt8 × List UInt8))
    (terminated : ∀ line ∈ lines.dropLast, Terminated line)
    (done : List (List UInt8)) :
    (finalWrite config (lines.foldl (mirrorLine config maxLineBytes)
        ⟨[], false, false, done⟩)).lines =
      done ++ mirroredLines config maxLineBytes lines := by
  induction lines generalizing done with
  | nil =>
      rw [List.foldl_nil, finalWrite_lines (.inl rfl), mirroredLines, List.append_nil]
      exact extendLast_nil done
  | cons line lines induction =>
      rw [List.foldl_cons, mirroredLines]
      cases finished : linePayload config maxLineBytes line with
      | none =>
          rw [mirrorLine_of_no_payload finished rfl,
            foldl_mirrorLine_stopped config maxLineBytes (.inr rfl)]
          exact (List.append_nil done).symm
      | some payload =>
          rw [mirrorLine_of_payload finished rfl]
          cases shows : written config payload with
          | none =>
              obtain ⟨stopped, same⟩ := echoWrite_of_not_written shows done
              rw [foldl_mirrorLine_stopped config maxLineBytes stopped, same]
              simp [shows]
          | some result =>
              obtain ⟨shown, held⟩ := result
              rw [echoWrite_of_written shows]
              simp only [shows, Option.isSome_some, if_true, mirrored]
              cases lines with
              | nil =>
                  rw [List.foldl_nil, finalWrite_lines (written_tail shows),
                    extendLast_append]
                  rfl
              | cons next lines =>
                  obtain rfl := linePayload_held positive
                    (terminated line List.mem_cons_self) finished shows
                  rw [induction fun other member =>
                    terminated other (List.mem_cons_of_mem line member)]
                  simp [flushed]

theorem echoLines_mirrored (config : EchoConfig) {maxLineBytes : Nat}
    (positive : 0 < maxLineBytes) (chunks : List (List UInt8)) :
    echoLines config maxLineBytes chunks =
      mirroredLines config maxLineBytes (sourceLines [] chunks.flatten) := by
  rw [echoLines_eq, foldl_mirrorLine_lines config positive _
    (sourceLines_terminated [] chunks.flatten)]
  rfl

theorem mem_mirroredLines {config : EchoConfig} {maxLineBytes : Nat}
    {lines : List (List UInt8 × List UInt8)} {entry : List UInt8}
    (member : entry ∈ mirroredLines config maxLineBytes lines) :
    ∃ line ∈ lines, ∃ payload, linePayload config maxLineBytes line = some payload ∧
      entry = mirrored config payload := by
  induction lines with
  | nil => cases member
  | cons line lines induction =>
      rw [mirroredLines] at member
      split at member
      next => cases member
      next payload finished =>
        split at member
        next =>
          rcases List.mem_cons.mp member with rfl | later
          · exact ⟨line, List.mem_cons_self, payload, finished, rfl⟩
          · obtain ⟨other, inside, found⟩ := induction later
            exact ⟨other, List.mem_cons_of_mem line inside, found⟩
        next => cases member

/-! A sink that shows no byte string as a longer one keeps every bound, and no
other sink does. -/

def Bounded (config : EchoConfig) : Prop :=
  ∀ maxLineBytes chunks, 0 < maxLineBytes →
    ∀ entry ∈ echoLines config maxLineBytes chunks, entry.length ≤ maxLineBytes

theorem mirrored_le_of_bounded {config : EchoConfig} (bounded : Bounded config)
    {bytes : List UInt8} {line : List UInt8 × List UInt8}
    (single : sourceLines [] bytes = [line]) (whole : line.1 ++ line.2 = bytes) :
    (mirrored config bytes).length ≤ bytes.length := by
  rcases Nat.eq_zero_or_pos bytes.length with zero | positive
  · obtain rfl := List.eq_nil_of_length_eq_zero zero
    cases single
  · have fits : line.1.length + line.2.length ≤ bytes.length := by
      rw [← whole, List.length_append]
    have finished := linePayload_of_fits config fits
    rw [whole] at finished
    cases shows : written config bytes with
    | none => simp [mirrored, shows]
    | some result =>
        refine bounded bytes.length [bytes] positive _ ?_
        rw [echoLines_mirrored config positive, List.flatten_singleton, single,
          mirroredLines, finished]
        simp [shows]

theorem written_append_lineFeed {config : EchoConfig}
    {front rest shown held : List UInt8}
    (shows : written config (front ++ [lineFeed] ++ rest) = some (shown, held)) :
    ∃ first second, written config (front ++ [lineFeed]) = some (first, []) ∧
      written config rest = some (second, held) ∧ shown = first ++ second := by
  cases buffer : config.hasBuffer with
  | true =>
      simp only [written_of_buffer buffer, Option.some.injEq, Prod.mk.injEq] at shows ⊢
      exact ⟨_, _, ⟨rfl, trivial⟩, ⟨rfl, shows.2⟩, shows.1.symm⟩
  | false =>
      simp only [written_text_iff buffer] at shows ⊢
      obtain ⟨text, decoded, encoded⟩ := shows
      rw [config.encoding.decoder.run_append config.encoding.stable,
        Option.bind_eq_some_iff] at decoded
      obtain ⟨⟨left, between⟩, first, decoded⟩ := decoded
      obtain ⟨⟨right, last⟩, second, equal⟩ := Option.map_eq_some_iff.mp decoded
      cases equal
      obtain rfl := run_lineFeed_held config.encoding first
      obtain ⟨firstBytes, secondBytes, hleft, hright, rfl⟩ :=
        encodeAll_append_inv encoded
      exact ⟨firstBytes, secondBytes, ⟨left, first, hleft⟩, ⟨right, second, hright⟩, rfl⟩

theorem mirrored_nil (config : EchoConfig) : mirrored config [] = [] := by
  have shows : written config [] = some ([], []) := by
    cases buffer : config.hasBuffer with
    | true => exact written_of_buffer buffer []
    | false =>
        have decoded := config.encoding.decoder.run_of_truncated
          config.encoding.decoder.read_nil config.viewErrors.decode
        exact (written_text_iff buffer).mpr ⟨[], decoded, rfl⟩
  simp [mirrored, shows, flushed]

theorem mirrored_append_lineFeed_le (config : EchoConfig) (front rest : List UInt8) :
    (mirrored config (front ++ [lineFeed] ++ rest)).length ≤
      (mirrored config (front ++ [lineFeed])).length +
        (mirrored config rest).length := by
  cases shows : written config (front ++ [lineFeed] ++ rest) with
  | none =>
      rw [mirrored, shows]
      exact Nat.zero_le _
  | some result =>
      obtain ⟨first, second, hfirst, hsecond, shape⟩ :=
        @written_append_lineFeed config front rest result.1 result.2 shows
      simp only [mirrored, shows, hfirst, hsecond, shape, List.length_append]
      omega

theorem nonExpanding_of_bounded {config : EchoConfig} (bounded : Bounded config) :
    NonExpanding config := by
  intro bytes
  induction size : bytes.length using Nat.strongRecOn generalizing bytes with
  | ind n induction =>
      subst size
      by_cases contains : lineFeed ∈ bytes
      · obtain ⟨front, rest, rfl, free⟩ := List.eq_append_cons_of_mem contains
        have line : sourceLines [] (front ++ [lineFeed]) = [splitEnding front] := by
          rw [sourceLines_append_of_not_mem free, List.nil_append,
            sourceLines_lineFeed]
          rfl
        have head := mirrored_le_of_bounded bounded line (splitEnding_whole front)
        have shorter : rest.length < (front ++ lineFeed :: rest).length := by
          simp only [List.length_append, List.length_cons]
          omega
        have tail := induction rest.length shorter rest rfl
        have both := mirrored_append_lineFeed_le config front rest
        rw [List.append_assoc, List.singleton_append] at both
        simp only [List.length_append, List.length_cons, List.length_nil] at head ⊢
        omega
      · by_cases empty : bytes = []
        · subst empty
          rw [mirrored_nil]
        · have line : sourceLines [] bytes = [(bytes, [])] := by
            have whole := sourceLines_append_of_not_mem contains [] []
            rw [List.append_nil, List.nil_append] at whole
            rw [whole, sourceLines_nil empty]
          exact mirrored_le_of_bounded bounded line (List.append_nil bytes)

theorem bounded_iff_nonExpanding (config : EchoConfig) :
    Bounded config ↔ NonExpanding config := by
  refine ⟨nonExpanding_of_bounded, fun nonExpanding maxLineBytes chunks positive => ?_⟩
  intro entry member
  rw [echoLines_mirrored config positive] at member
  obtain ⟨line, _, payload, finished, rfl⟩ := mem_mirroredLines member
  exact (nonExpanding payload).trans (linePayload_length_le finished)

/-! A configuration that never refuses its input and shows its own text as it is
keeps the bound on exactly the streams whose fitting lines it does not stretch. -/

/-- The error policies never raise where a line is shown, and nothing but a `UnicodeError`
where it is measured. -/
structure Total (config : EchoConfig) : Prop where
  heeded : config.errors.Heeded
  decode : ∀ bytes, (config.viewErrors.decode bytes).isSome
  encode : ∀ c, (encodeOne config.encoding config.errors c).isSome
  sinkEncode : ∀ c, (config.sinkEncode c).isSome

/-- What the codec has encoded, the sink shows in no more bytes. -/
def Readable (config : EchoConfig) : Prop :=
  ∀ bytes, Encoded config.encoding config.errors bytes →
    (mirrored config bytes).length ≤ bytes.length

theorem truncationMarker_isSome {codec : EchoCodec} {errors : ErrorPolicy}
    (encode : ∀ c, (encodeOne codec errors c).isSome) (dropped : Nat) :
    (truncationMarker dropped codec errors).isSome := by
  unfold truncationMarker
  split
  next => rfl
  next => exact encodeAll_isSome encode _

theorem scanPrefix_isSome {settings : EchoEncoding} (heeded : settings.errors.Heeded)
    (budget : Nat) (scan : PrefixScan) (line : List UInt8) :
    (scanPrefix settings budget scan line).isSome := by
  induction line generalizing scan with
  | nil => rfl
  | cons byte rest induction =>
      rw [scanPrefix]
      split
      next => simp [heeded.decode]
      next =>
        split
        next => simp [heeded.encode]
        next =>
          dsimp only
          split
          next => exact induction _
          next =>
            split
            next => rfl
            next => exact induction _

theorem encodePrefix_isSome {settings : EchoEncoding} (heeded : settings.errors.Heeded)
    (line : List UInt8) (budget : Nat) : (encodePrefix line budget settings).isSome := by
  unfold encodePrefix
  split
  next =>
    rw [Option.isSome_map]
    exact scanPrefix_isSome heeded budget _ line
  next => rfl

theorem boundedPrefix_isSome {settings : EchoEncoding} (heeded : settings.errors.Heeded)
    (encode : ∀ c, (encodeOne settings.encoding settings.errors c).isSome)
    (limiter : EchoLineLimiter) (line : List UInt8) (finalization : LineFinalization)
    (dropped passes : Nat) :
    (limiter.boundedPrefix line finalization settings dropped (passes + 1)).isSome := by
  induction passes generalizing dropped with
  | zero =>
      obtain ⟨marker, marked⟩ :=
        Option.isSome_iff_exists.mp (truncationMarker_isSome encode dropped)
      obtain ⟨found, cut⟩ := Option.isSome_iff_exists.mp
        (encodePrefix_isSome heeded line
          (limiter.maxLineBytes - finalization.ending.length - marker.length))
      simp [EchoLineLimiter.boundedPrefix, marked, cut]
  | succ passes induction =>
      obtain ⟨marker, marked⟩ :=
        Option.isSome_iff_exists.mp (truncationMarker_isSome encode dropped)
      obtain ⟨found, cut⟩ := Option.isSome_iff_exists.mp
        (encodePrefix_isSome heeded line
          (limiter.maxLineBytes - finalization.ending.length - marker.length))
      rw [EchoLineLimiter.boundedPrefix, marked]
      dsimp only
      rw [cut]
      dsimp only
      split
      next => rfl
      next => exact induction _

theorem fitMarker_isSome {settings : EchoEncoding} (heeded : settings.errors.Heeded)
    (encode : ∀ c, (encodeOne settings.encoding settings.errors c).isSome)
    (marker : List UInt8) (budget dropped : Nat) :
    (fitMarker marker budget dropped settings).isSome := by
  obtain ⟨fallback, spelled⟩ := Option.isSome_iff_exists.mp
    (encodeAll_isSome encode (asciiTruncationMarkerTemplate dropped))
  unfold fitMarker encodeText
  split
  next => rfl
  next =>
    rw [spelled, Option.isSome_map]
    exact encodePrefix_isSome heeded fallback budget

theorem isSome_bind {α β : Type*} {first : Option α} {next : α → Option β}
    (hfirst : first.isSome) (hnext : ∀ value, (next value).isSome) :
    (first.bind next).isSome := by
  obtain ⟨value, found⟩ := Option.isSome_iff_exists.mp hfirst
  rw [found]
  exact hnext value

theorem finishLine_isSome {settings : EchoEncoding} (heeded : settings.errors.Heeded)
    (encode : ∀ c, (encodeOne settings.encoding settings.errors c).isSome)
    (limiter : EchoLineLimiter) (ending : List UInt8) :
    (limiter.finishLine ending settings).1.isSome := by
  simp only [EchoLineLimiter.finishLine]
  split
  next => rfl
  next =>
    apply isSome_bind (boundedPrefix_isSome heeded encode _ _ _ _ 15)
    intro found
    apply isSome_bind (truncationMarker_isSome encode _)
    intro marker
    apply isSome_bind (fitMarker_isSome heeded encode _ _ _)
    intro fitted
    rfl

theorem linePayload_isSome {config : EchoConfig} (total : Total config)
    (maxLineBytes : Nat) (line : List UInt8 × List UInt8) :
    (linePayload config maxLineBytes line).isSome := by
  have encode : ∀ c, (encodeOne config.settings.encoding config.settings.errors
      c).isSome := total.encode
  rw [linePayload, Option.isSome_map]
  exact finishLine_isSome total.heeded encode _ _

theorem run_isSome {decoder : Decoder CodePoint UInt8}
    {handler : List UInt8 → Option (List CodePoint)}
    (total : ∀ bytes, (handler bytes).isSome) (bytes : List UInt8) :
    (decoder.run handler bytes).isSome := by
  induction size : bytes.length using Nat.strongRecOn generalizing bytes with
  | ind n induction =>
      cases found : decoder.read bytes with
      | symbol value width =>
          have widths := decoder.read_symbol found
          rw [decoder.run_of_symbol found, Option.isSome_map]
          exact induction _ (by rw [List.length_drop]; omega) _ rfl
      | malformed width =>
          have widths := decoder.read_malformed found
          obtain ⟨replaced, handled⟩ :=
            Option.isSome_iff_exists.mp (total (bytes.take width))
          rw [decoder.run_of_malformed found, handled, Option.bind_some,
            Option.isSome_map]
          exact induction _ (by rw [List.length_drop]; omega) _ rfl
      | truncated =>
          rw [decoder.run_of_truncated found]
          rfl

theorem written_isSome {config : EchoConfig} (total : Total config)
    (bytes : List UInt8) : (written config bytes).isSome := by
  unfold written
  split
  next => rfl
  next =>
    obtain ⟨result, decoded⟩ :=
      Option.isSome_iff_exists.mp (run_isSome total.decode bytes)
    rw [decoded, Option.bind_some, Option.isSome_map]
    exact encodeAll_isSome total.sinkEncode result.1

theorem mirrored_mem {config : EchoConfig} (total : Total config) {maxLineBytes : Nat}
    {lines : List (List UInt8 × List UInt8)} {line : List UInt8 × List UInt8}
    (member : line ∈ lines) {payload : List UInt8}
    (finished : linePayload config maxLineBytes line = some payload) :
    mirrored config payload ∈ mirroredLines config maxLineBytes lines := by
  induction lines with
  | nil => cases member
  | cons first lines induction =>
      obtain ⟨firstPayload, firstFinished⟩ :=
        Option.isSome_iff_exists.mp (linePayload_isSome total maxLineBytes first)
      rw [mirroredLines, firstFinished]
      simp only [written_isSome total, if_true]
      rcases List.mem_cons.mp member with rfl | later
      · cases finished.symm.trans firstFinished
        exact List.mem_cons_self
      · exact List.mem_cons_of_mem _ (induction later)

theorem sourceLines_ending (body bytes : List UInt8) :
    ∀ line ∈ sourceLines body bytes, ∀ byte ∈ line.2, byte.toNat < 0x80 := by
  induction bytes generalizing body with
  | nil =>
      rw [sourceLines, splitEchoSegments]
      split <;> simp
  | cons byte bytes induction =>
      by_cases isFeed : byte = lineFeed
      · subst isFeed
        rw [sourceLines_lineFeed, List.forall_mem_cons]
        refine ⟨?_, induction []⟩
        unfold splitEnding
        split <;> simp [carriageReturn, lineFeed]
      · rw [sourceLines_plain isFeed]
        exact induction _

theorem mirrored_of_buffer {config : EchoConfig} (buffer : config.hasBuffer = true)
    (bytes : List UInt8) : mirrored config bytes = bytes := by
  simp [mirrored, written_of_buffer buffer, flushed]

theorem mirrored_truncated_le {config : EchoConfig} (readable : Readable config)
    {maxLineBytes : Nat} {line : List UInt8 × List UInt8}
    (ascii : ∀ byte ∈ line.2, byte.toNat < 0x80)
    (exceeds : ¬ line.1.length + line.2.length ≤ maxLineBytes)
    {payload : List UInt8}
    (finished : linePayload config maxLineBytes line = some payload) :
    (mirrored config payload).length ≤ payload.length := by
  cases buffer : config.hasBuffer with
  | true => rw [mirrored_of_buffer buffer]
  | false =>
      obtain ⟨encoded, marker, rfl, text⟩ := linePayload_eq finished exceeds
      obtain ⟨hencoded, hmarker⟩ := text buffer
      refine readable _ ((hencoded.append hmarker).append (encoded_ascii _ _ ?_))
      unfold EchoLineLimiter.keptEnding
      split
      next => exact ascii
      next => simp

/-- On a stream the bound holds exactly when no line that fits it is stretched. -/
theorem stream_bounded_iff {config : EchoConfig} (total : Total config)
    (readable : Readable config) {maxLineBytes : Nat} (positive : 0 < maxLineBytes)
    (chunks : List (List UInt8)) :
    (∀ entry ∈ echoLines config maxLineBytes chunks, entry.length ≤ maxLineBytes) ↔
      ∀ line ∈ sourceLines [] chunks.flatten,
        line.1.length + line.2.length ≤ maxLineBytes →
          (mirrored config (line.1 ++ line.2)).length ≤ maxLineBytes := by
  rw [echoLines_mirrored config positive]
  constructor
  · intro bounded line member fits
    exact bounded _ (mirrored_mem total member (linePayload_of_fits config fits))
  · intro unstretched entry member
    obtain ⟨line, inside, payload, finished, rfl⟩ := mem_mirroredLines member
    by_cases fits : line.1.length + line.2.length ≤ maxLineBytes
    · rw [linePayload_of_fits config fits] at finished
      cases finished
      exact unstretched line inside fits
    · have ascii := sourceLines_ending [] chunks.flatten line inside
      exact (mirrored_truncated_le readable ascii fits finished).trans
        (linePayload_length_le finished)

/-! The usual text sink: UTF-8 with replacement characters, as the run has it. -/

def utf8Replace (captureBytes : Bool) : EchoConfig where
  encoding := utf8Codec
  errors := replaceErrors
  captureBytes := captureBytes
  hasBuffer := false
  sinkEncode := encodeOne utf8Codec replaceErrors

theorem viewErrors_utf8Replace (captureBytes : Bool) :
    (utf8Replace captureBytes).viewErrors = replaceErrors := by
  cases captureBytes <;> rfl

theorem encodeOne_replace_isSome (c : CodePoint) :
    (encodeOne utf8Codec replaceErrors c).isSome := by
  unfold encodeOne
  split
  next => rfl
  next => rfl

theorem utf8Replace_total (captureBytes : Bool) : Total (utf8Replace captureBytes) where
  heeded := ⟨fun _ => rfl, fun _ => rfl⟩
  decode bytes := by
    rw [viewErrors_utf8Replace]
    rfl
  encode := encodeOne_replace_isSome
  sinkEncode := encodeOne_replace_isSome

theorem encodeText_replace (text : List CodePoint) :
    ∃ chars : List Char, encodeText utf8Codec replaceErrors text =
      some (chars.flatMap String.utf8EncodeChar) := by
  induction text with
  | nil => exact ⟨[], rfl⟩
  | cons c text induction =>
      obtain ⟨chars, rest⟩ := induction
      have first : ∃ char, encodeOne utf8Codec replaceErrors c =
          some (String.utf8EncodeChar char) := by
        unfold encodeOne
        cases found : charOf c with
        | none => exact ⟨'?', by simp [utf8Codec, found]; rfl⟩
        | some char => exact ⟨char, by simp [utf8Codec, found]⟩
      obtain ⟨char, one⟩ := first
      rw [encodeText] at rest ⊢
      exact ⟨char :: chars, by simp [encodeAll, one, rest]⟩

theorem utf8Replace_readable (captureBytes : Bool) :
    Readable (utf8Replace captureBytes) := by
  rintro bytes ⟨text, encoded⟩
  obtain ⟨chars, spelled⟩ := encodeText_replace text
  cases spelled.symm.trans encoded
  have decoded := utf8Decoder_reads.run_encodeAll
    (utf8Replace captureBytes).viewErrors.decode chars
  have shows : written (utf8Replace captureBytes)
      (chars.flatMap String.utf8EncodeChar) =
        some (chars.flatMap String.utf8EncodeChar, []) :=
    (written_text_iff rfl).mpr ⟨_, decoded, encodeText_utf8 _ chars⟩
  simp [mirrored, shows, flushed]

theorem mirrored_invalid (captureBytes : Bool) :
    mirrored (utf8Replace captureBytes) [0xFF, 0x0A] = [0xEF, 0xBF, 0xBD, 0x0A] := by
  have broken : utf8Decoder.read [0xFF, 0x0A] = .malformed 1 := rfl
  have feed : utf8Decoder.read [0x0A] = .symbol (.ofNat 0x0A) 1 := rfl
  have decoded : utf8Decoder.run replaceErrors.decode [0xFF, 0x0A] =
      some ([.ofNat 0xFFFD, .ofNat 0x0A], []) := by
    rw [utf8Decoder.run_of_malformed broken]
    simp [replaceErrors, utf8Decoder.run_of_symbol feed,
      utf8Decoder.run_of_truncated utf8Decoder.read_nil]
  have shows : written (utf8Replace captureBytes) [0xFF, 0x0A] =
      some ([0xEF, 0xBF, 0xBD, 0x0A], []) := by
    refine (written_text_iff rfl).mpr ⟨_, ?_, encodeText_utf8 _ ['\uFFFD', '\n']⟩
    rw [viewErrors_utf8Replace]
    exact decoded
  simp [mirrored, shows, flushed]

/-- Which echoes keep the bound: on every stream, those whose sink shows no byte
string as a longer one; on one stream, those that stretch no line that fits. -/
theorem echo_within_bound_iff (config : EchoConfig) :
    ((∀ maxLineBytes chunks, 0 < maxLineBytes →
        ∀ entry ∈ echoLines config maxLineBytes chunks,
          entry.length ≤ maxLineBytes) ↔
      ∀ bytes, (mirrored config bytes).length ≤ bytes.length) ∧
    (Total config → Readable config → ∀ maxLineBytes chunks, 0 < maxLineBytes →
      ((∀ entry ∈ echoLines config maxLineBytes chunks,
          entry.length ≤ maxLineBytes) ↔
        ∀ line ∈ sourceLines [] chunks.flatten,
          line.1.length + line.2.length ≤ maxLineBytes →
            (mirrored config (line.1 ++ line.2)).length ≤ maxLineBytes)) := by
  refine ⟨bounded_iff_nonExpanding config, fun total readable => ?_⟩
  intro maxLineBytes chunks positive
  exact stream_bounded_iff total readable positive chunks

theorem echo_within_bound_utf8 :
    ∀ entry ∈ echoLines (utf8Replace false) 4 [[0xFF], [0x0A]],
      entry.length ≤ 4 := by
  apply ((echo_within_bound_iff (utf8Replace false)).2 (utf8Replace_total false)
    (utf8Replace_readable false) 4 [[0xFF], [0x0A]] (by decide)).mpr
  have lines : sourceLines [] [[0xFF], [0x0A]].flatten = [([0xFF], [0x0A])] := rfl
  rw [lines]
  simp [mirrored_invalid]

/-- An invalid byte that fits its line as one byte is shown as three. -/
theorem echo_exceeds_bound :
    ∃ entry ∈ echoLines (utf8Replace false) 2 [[0xFF, 0x0A]], 2 < entry.length := by
  have lines : sourceLines [] [[0xFF, 0x0A]].flatten = [([0xFF], [0x0A])] := rfl
  have finished : linePayload (utf8Replace false) 2 ([0xFF], [0x0A]) =
      some [0xFF, 0x0A] :=
    linePayload_of_fits _ (by decide)
  refine ⟨[0xEF, 0xBF, 0xBD, 0x0A], ?_, by decide⟩
  rw [echoLines_mirrored _ (by decide), lines, ← mirrored_invalid false]
  exact mirrored_mem (utf8Replace_total false) List.mem_cons_self finished

end Cuprum.Echo
