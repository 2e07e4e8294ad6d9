import Cuprum.Codec.PrefixCode

namespace Cuprum.Codec

universe u v

variable {α : Type u} {β : Type v}

/-- What a decoder finds at the front of its input. -/
inductive Reading (α : Type u)
  | symbol (value : α) (width : Nat)
  | malformed (width : Nat)
  | truncated

structure Decoder (α : Type u) (β : Type v) where
  read : List β → Reading α
  read_symbol : ∀ {input value width}, read input = .symbol value width →
    0 < width ∧ width ≤ input.length
  read_malformed : ∀ {input width}, read input = .malformed width →
    0 < width ∧ width ≤ input.length

namespace Decoder

variable (decoder : Decoder α β)

/-- Decode as far as the input goes.  The handler replaces a malformed sequence
or refuses it; the units of a truncated sequence at the end are returned. -/
def run (handler : List β → Option (List α)) (input : List β) :
    Option (List α × List β) :=
  match _found : decoder.read input with
  | .symbol value width =>
      (run handler (input.drop width)).map fun result =>
        (value :: result.1, result.2)
  | .malformed width =>
      match handler (input.take width) with
      | none => none
      | some replaced =>
          (run handler (input.drop width)).map fun result =>
            (replaced ++ result.1, result.2)
  | .truncated => some ([], input)
termination_by input.length
decreasing_by
  · have := decoder.read_symbol _found
    rw [List.length_drop]
    omega
  · have := decoder.read_malformed _found
    rw [List.length_drop]
    omega

def decode (handler : List β → Option (List α)) (input : List β) :
    Option (List α) :=
  match decoder.run handler input with
  | none => none
  | some (decoded, []) => some decoded
  | some (decoded, tail) => (handler tail).map (decoded ++ ·)

@[simp] theorem read_nil : decoder.read [] = .truncated := by
  cases found : decoder.read [] with
  | symbol value width =>
      have := decoder.read_symbol found
      simp only [List.length_nil] at this
      omega
  | malformed width =>
      have := decoder.read_malformed found
      simp only [List.length_nil] at this
      omega
  | truncated => rfl

theorem run_of_truncated {input : List β} (found : decoder.read input = .truncated)
    (handler : List β → Option (List α)) :
    decoder.run handler input = some ([], input) := by
  rw [run]
  split
  next other => cases found.symm.trans other
  next other => cases found.symm.trans other
  next => rfl

theorem run_of_symbol {input : List β} {value : α} {width : Nat}
    (found : decoder.read input = .symbol value width)
    (handler : List β → Option (List α)) :
    decoder.run handler input =
      (decoder.run handler (input.drop width)).map fun result =>
        (value :: result.1, result.2) := by
  rw [run]
  split
  next other =>
    cases found.symm.trans other
    rfl
  next other => cases found.symm.trans other
  next other => cases found.symm.trans other

theorem run_of_malformed {input : List β} {width : Nat}
    (found : decoder.read input = .malformed width)
    (handler : List β → Option (List α)) :
    decoder.run handler input =
      (handler (input.take width)).bind fun replaced =>
        (decoder.run handler (input.drop width)).map fun result =>
          (replaced ++ result.1, result.2) := by
  rw [run]
  split
  next other => cases found.symm.trans other
  next other =>
    cases found.symm.trans other
    cases handler (input.take width) <;> rfl
  next other => cases found.symm.trans other

theorem tail_of_symbol {handler : List β → Option (List α)} {input held : List β}
    {text : List α} {value : α} {width : Nat}
    (found : decoder.read input = .symbol value width)
    (decoded : decoder.run handler input = some (text, held)) :
    ∃ rest, decoder.run handler (input.drop width) = some (rest, held) := by
  rw [decoder.run_of_symbol found, Option.map_eq_some_iff] at decoded
  obtain ⟨⟨rest, tail⟩, after, equal⟩ := decoded
  cases equal
  exact ⟨rest, after⟩

theorem tail_of_malformed {handler : List β → Option (List α)} {input held : List β}
    {text : List α} {width : Nat} (found : decoder.read input = .malformed width)
    (decoded : decoder.run handler input = some (text, held)) :
    ∃ rest, decoder.run handler (input.drop width) = some (rest, held) := by
  rw [decoder.run_of_malformed found, Option.bind_eq_some_iff] at decoded
  obtain ⟨replaced, _, decoded⟩ := decoded
  obtain ⟨⟨rest, tail⟩, after, equal⟩ := Option.map_eq_some_iff.mp decoded
  cases equal
  exact ⟨rest, after⟩

/-- What is held at the end could still be completed. -/
theorem read_tail {handler : List β → Option (List α)} {input held : List β}
    {text : List α} (decoded : decoder.run handler input = some (text, held)) :
    decoder.read held = .truncated := by
  induction size : input.length using Nat.strongRecOn generalizing input text with
  | ind n induction =>
      cases found : decoder.read input with
      | symbol value width =>
          have widths := decoder.read_symbol found
          obtain ⟨rest, after⟩ := decoder.tail_of_symbol found decoded
          exact induction _ (by rw [List.length_drop]; omega) after rfl
      | malformed width =>
          have widths := decoder.read_malformed found
          obtain ⟨rest, after⟩ := decoder.tail_of_malformed found decoded
          exact induction _ (by rw [List.length_drop]; omega) after rfl
      | truncated =>
          rw [decoder.run_of_truncated found] at decoded
          cases decoded
          exact found

/-- What the decoder has read does not depend on the input that follows. -/
structure Stable : Prop where
  symbol : ∀ {input value width} rest, decoder.read input = .symbol value width →
    decoder.read (input ++ rest) = .symbol value width
  malformed : ∀ {input width} rest, decoder.read input = .malformed width →
    decoder.read (input ++ rest) = .malformed width

/-- A stable decoder resumes from the units it holds. -/
theorem run_append (stable : decoder.Stable) (handler : List β → Option (List α))
    (left right : List β) :
    decoder.run handler (left ++ right) =
      (decoder.run handler left).bind fun first =>
        (decoder.run handler (first.2 ++ right)).map fun second =>
          (first.1 ++ second.1, second.2) := by
  induction size : left.length using Nat.strongRecOn generalizing left with
  | ind n induction =>
      cases found : decoder.read left with
      | symbol value width =>
          have widths := decoder.read_symbol found
          rw [decoder.run_of_symbol (stable.symbol right found),
            decoder.run_of_symbol found, List.drop_append_of_le_length widths.2,
            induction _ (by rw [List.length_drop]; omega) _ rfl]
          cases decoder.run handler (left.drop width) with
          | none => rfl
          | some first =>
              cases after : decoder.run handler (first.2 ++ right) <;> simp [after]
      | malformed width =>
          have widths := decoder.read_malformed found
          rw [decoder.run_of_malformed (stable.malformed right found),
            decoder.run_of_malformed found, List.drop_append_of_le_length widths.2,
            List.take_append_of_le_length widths.2,
            induction _ (by rw [List.length_drop]; omega) _ rfl]
          cases handler (left.take width) with
          | none => rfl
          | some replaced =>
              cases decoder.run handler (left.drop width) with
              | none => rfl
              | some first =>
                  cases after : decoder.run handler (first.2 ++ right) <;>
                    simp [after]
      | truncated =>
          rw [decoder.run_of_truncated found]
          cases after : decoder.run handler (left ++ right) <;> simp [after]

/-- A cut of an encoded text: the symbols before it, those after it, and the
part between, which ends the word the cut fell into. -/
structure Cut {γ : Type*} (encode : γ → List β) (symbols : List γ) (offset : Nat)
    (head kept : List γ) (part : List β) : Prop where
  split : symbols = head ++ kept
  tail : (symbols.flatMap encode).drop offset = part ++ kept.flatMap encode
  position : offset + part.length = (head.flatMap encode).length
  inside : part = [] ∨ ∃ before symbol, head = before ++ [symbol] ∧
    part <:+ encode symbol ∧ part.length < (encode symbol).length

theorem exists_cut {γ : Type*} (encode : γ → List β) (symbols : List γ)
    (offset : Nat) (inside : offset ≤ (symbols.flatMap encode).length) :
    ∃ head kept part, Cut encode symbols offset head kept part := by
  induction symbols generalizing offset with
  | nil =>
      refine ⟨[], [], [], rfl, by simp, ?_, .inl rfl⟩
      simpa using inside
  | cons symbol symbols induction =>
      rw [List.flatMap_cons, List.length_append] at inside
      by_cases within : offset < (encode symbol).length
      · rcases Nat.eq_zero_or_pos offset with rfl | positive
        · exact ⟨[], symbol :: symbols, [], rfl, by simp, rfl, .inl rfl⟩
        · refine ⟨[symbol], symbols, (encode symbol).drop offset, rfl, ?_, ?_,
            .inr ⟨[], symbol, rfl, List.drop_suffix _ _, ?_⟩⟩
          · rw [List.flatMap_cons, List.drop_append_of_le_length (by omega)]
          · simp only [List.length_drop, List.flatMap_cons, List.flatMap_nil,
              List.append_nil]
            omega
          · rw [List.length_drop]
            omega
      · obtain ⟨head, kept, part, cut⟩ :=
          induction (offset - (encode symbol).length) (by omega)
        refine ⟨symbol :: head, kept, part, ?_, ?_, ?_, ?_⟩
        · rw [cut.split, List.cons_append]
        · rw [List.flatMap_cons, List.drop_append, List.drop_eq_nil_of_le (by omega),
            List.nil_append, cut.tail]
        · have := cut.position
          rw [List.flatMap_cons, List.length_append]
          omega
        · rcases cut.inside with empty | ⟨before, other, shape, suffix, short⟩
          · exact .inl empty
          · exact .inr ⟨symbol :: before, other, by rw [shape]; rfl, suffix, short⟩

/-- What a cut keeps is the longest run of whole words after it. -/
theorem Cut.longest {γ : Type*} {encode : γ → List β} {symbols head kept : List γ}
    {offset : Nat} {part : List β} (cut : Cut encode symbols offset head kept part)
    (nonempty : ∀ symbol, 0 < (encode symbol).length) {suffix : List γ}
    (isSuffix : suffix <:+ symbols)
    (fits : offset + (suffix.flatMap encode).length ≤
      (symbols.flatMap encode).length) : suffix <:+ kept := by
  have keptSuffix : kept <:+ symbols := ⟨head, cut.split.symm⟩
  rcases List.suffix_or_suffix_of_suffix isSuffix keptSuffix with inner | outer
  · exact inner
  · obtain ⟨more, rfl⟩ := outer
    rcases List.eq_nil_or_concat more with rfl | ⟨front, last, rfl⟩
    · simp
    · rw [List.concat_eq_append] at isSuffix fits ⊢
      obtain ⟨before, whole⟩ := isSuffix
      have position := cut.position
      have total := congrArg (fun text => (text.flatMap encode).length) cut.split
      simp only [List.flatMap_append, List.length_append, List.flatMap_singleton]
        at fits total
      have word := nonempty last
      rcases cut.inside with rfl | ⟨start, symbol, rfl, _, short⟩
      · simp only [List.length_nil] at position
        omega
      · rw [cut.split, ← List.append_assoc, ← List.append_assoc] at whole
        have same := (List.append_inj' (List.append_cancel_right whole) rfl).2
        rw [← (List.cons.inj same).1] at short
        omega

/-- The decoder reads back every word of an encoding, whatever follows it. -/
def Reads {γ : Type*} (encode : γ → List β) (value : γ → α) : Prop :=
  ∀ symbol rest, decoder.read (encode symbol ++ rest) =
    .symbol (value symbol) (encode symbol).length

namespace Reads

variable {decoder} {γ : Type*} {encode : γ → List β} {value : γ → α}

theorem encode_length_pos (reads : decoder.Reads encode value) (symbol : γ) :
    0 < (encode symbol).length :=
  (decoder.read_symbol (reads symbol [])).1

theorem run_encodeAll_append (reads : decoder.Reads encode value)
    (handler : List β → Option (List α)) (text : List γ) (rest : List β) :
    decoder.run handler (text.flatMap encode ++ rest) =
      (decoder.run handler rest).map fun result =>
        (text.map value ++ result.1, result.2) := by
  induction text with
  | nil => cases found : decoder.run handler rest <;> simp [found]
  | cons symbol text induction =>
      rw [List.flatMap_cons, List.append_assoc,
        decoder.run_of_symbol (reads symbol _), List.drop_left, induction]
      cases decoder.run handler rest <;> simp

theorem run_encodeAll (reads : decoder.Reads encode value)
    (handler : List β → Option (List α)) (text : List γ) :
    decoder.run handler (text.flatMap encode) = some (text.map value, []) := by
  have whole := reads.run_encodeAll_append handler text []
  rw [List.append_nil, decoder.run_of_truncated decoder.read_nil] at whole
  simpa using whole

theorem decode_encodeAll (reads : decoder.Reads encode value)
    (handler : List β → Option (List α)) (text : List γ) :
    decoder.decode handler (text.flatMap encode) = some (text.map value) := by
  rw [decode, reads.run_encodeAll]

end Reads

end Decoder

namespace PrefixCode

variable {γ : Type*} (code : PrefixCode α β)

/-- The decoder of a prefix code, reading its symbols as other values. -/
def toDecoder (value : α → γ) : Decoder γ β where
  read input :=
    if input = [] then .truncated
    else
      match code.front input with
      | .symbol symbol => .symbol (value symbol) (code.encode symbol).length
      | .malformed width => .malformed width
      | .truncated => .truncated
  read_symbol {input _ width} found := by
    split_ifs at found
    cases front : code.front input with
    | symbol symbol =>
        rw [front] at found
        injection found with _ equal
        rw [← equal]
        exact ⟨code.encode_length_pos symbol,
          (code.front_symbol_iff.mp front).length_le⟩
    | malformed width => simp [front] at found
    | truncated => simp [front] at found
  read_malformed {input width} found := by
    split_ifs at found with nonempty
    cases front : code.front input with
    | symbol symbol => simp [front] at found
    | malformed other =>
        rw [front] at found
        injection found with equal
        have subpart := code.front_malformed nonempty front
        rw [← equal]
        exact ⟨subpart.pos, subpart.le_length⟩
    | truncated => simp [front] at found

theorem toDecoder_reads (value : α → γ) :
    (code.toDecoder value).Reads code.encode value := by
  intro symbol rest
  have nonempty : code.encode symbol ++ rest ≠ [] := by
    simp [code.encode_ne_nil symbol]
  simp only [toDecoder, if_neg nonempty, code.front_encode_append]

theorem toDecoder_symbol {value : α → γ} {input : List β} {read : γ} {width : Nat}
    (found : (code.toDecoder value).read input = .symbol read width) :
    ∃ symbol, code.front input = .symbol symbol ∧ read = value symbol ∧
      width = (code.encode symbol).length := by
  simp only [toDecoder] at found
  split_ifs at found
  cases front : code.front input with
  | symbol symbol =>
      rw [front] at found
      injection found with same width
      exact ⟨symbol, rfl, same.symm, width.symm⟩
  | malformed other => simp [front] at found
  | truncated => simp [front] at found

theorem toDecoder_malformed {value : α → γ} {input : List β} {width : Nat}
    (found : (code.toDecoder value).read input = .malformed width) :
    input ≠ [] ∧ code.front input = .malformed width := by
  simp only [toDecoder] at found
  split_ifs at found with empty
  refine ⟨empty, ?_⟩
  cases front : code.front input with
  | symbol symbol => simp [front] at found
  | malformed other => simpa [front] using found
  | truncated => simp [front] at found

theorem toDecoder_stable (value : α → γ) : (code.toDecoder value).Stable := by
  constructor
  · intro input read width rest found
    obtain ⟨symbol, front, rfl, rfl⟩ := code.toDecoder_symbol found
    obtain ⟨tail, rfl⟩ := code.front_symbol_iff.mp front
    rw [List.append_assoc]
    exact code.toDecoder_reads value symbol (tail ++ rest)
  · intro input width rest found
    obtain ⟨nonempty, front⟩ := code.toDecoder_malformed found
    have longer : input ++ rest ≠ [] := by simp [nonempty]
    simp only [toDecoder, if_neg longer,
      code.front_append_of_malformed nonempty front rest]

theorem toDecoder_truncated_iff {value : α → γ} {input : List β}
    (nonempty : input ≠ []) :
    (code.toDecoder value).read input = .truncated ↔ IsPartial code.encode input := by
  rw [← code.front_truncated_iff nonempty]
  simp only [toDecoder, if_neg nonempty]
  cases code.front input <;> simp

end PrefixCode

end Cuprum.Codec
