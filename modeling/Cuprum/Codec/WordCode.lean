import Cuprum.Codec.PrefixCode

namespace Cuprum.Codec

universe u v

variable {α : Type u} {β : Type v}

/-- A prefix code given by deciders for whole and partial words.  Growing the
word one unit at a time then classifies the front of every input. -/
structure WordCode (α : Type u) (β : Type v) where
  encode : α → List β
  decodeWord : List β → Option α
  partialWord : List β → Bool
  encode_ne_nil : ∀ symbol, encode symbol ≠ []
  decodeWord_iff : ∀ {word symbol},
    decodeWord word = some symbol ↔ encode symbol = word
  partialWord_iff : ∀ {word}, partialWord word = true ↔ IsPartial encode word
  prefixFree : ∀ {first second},
    encode first <+: encode second → first = second

namespace WordCode

variable (code : WordCode α β)

/-- Grow `grown`, a partial word or nothing, through the rest of the input. -/
def frontFrom (grown : List β) : List β → Front α
  | [] => .truncated
  | unit :: rest =>
      match code.decodeWord (grown ++ [unit]) with
      | some symbol => .symbol symbol
      | none =>
          if code.partialWord (grown ++ [unit]) then
            frontFrom (grown ++ [unit]) rest
          else
            .malformed (max 1 grown.length)

theorem not_encode_prefix_of_isPartial {word : List β}
    (isPartial : IsPartial code.encode word) (symbol : α) :
    ¬ code.encode symbol <+: word := by
  intro isPrefix
  obtain ⟨_, longer, wordPrefix, notWhole⟩ := isPartial
  have same := code.prefixFree (isPrefix.trans wordPrefix)
  subst longer
  exact notWhole (wordPrefix.eq_of_length
    (Nat.le_antisymm wordPrefix.length_le isPrefix.length_le))

private theorem not_encode_prefix_of_grown {grown : List β}
    (hgrown : grown = [] ∨ IsPartial code.encode grown) (symbol : α) :
    ¬ code.encode symbol <+: grown := by
  rcases hgrown with rfl | isPartial
  · intro isPrefix
    exact code.encode_ne_nil symbol (List.prefix_nil.mp isPrefix)
  · exact code.not_encode_prefix_of_isPartial isPartial symbol

/-- The classification of a whole input, stated for the state the growth of a
word has reached. -/
private structure Classified (input : List β) (front : Front α) : Prop where
  symbol : ∀ value, front = .symbol value → code.encode value <+: input
  truncated : front = .truncated → IsPartial code.encode input
  malformed : ∀ width, front = .malformed width →
    MaximalSubpart code.encode input width ∧
      (∀ value, ¬ code.encode value <+: input) ∧
      ¬ IsPartial code.encode input

private theorem classified_malformed (grown rest : List β) (unit : β)
    (hgrown : grown = [] ∨ IsPartial code.encode grown)
    (noWord : ∀ value, code.encode value ≠ grown ++ [unit])
    (notPartial : ¬ IsPartial code.encode (grown ++ [unit])) :
    code.Classified (grown ++ unit :: rest)
      (.malformed (max 1 grown.length)) := by
  have split : grown ++ unit :: rest = (grown ++ [unit]) ++ rest := by simp
  have beyond : ∀ n, grown.length < n → n ≤ (grown ++ unit :: rest).length →
      grown ++ [unit] <+: (grown ++ unit :: rest).take n := by
    intro n long _
    rw [split, List.take_append, List.take_of_length_le (by simp; omega)]
    exact List.prefix_append _ _
  have stop : ∀ word, grown ++ [unit] <+: word → ¬ IsPartial code.encode word :=
    fun word isPrefix isPartial =>
      notPartial (isPartial.of_prefix (by simp) isPrefix)
  refine ⟨by simp, by simp, ?_⟩
  intro width equal
  injection equal with equal
  subst width
  refine ⟨⟨?_, ?_, ?_, ?_⟩, ?_, ?_⟩
  · omega
  · rw [List.length_append, List.length_cons]
    omega
  · intro wide
    rcases hgrown with rfl | isPartial
    · simp at wide
    · have := List.length_pos_iff.mpr isPartial.1
      rw [Nat.max_eq_right (by omega), List.take_left]
      exact isPartial
  · intro n le isPartial
    by_contra long
    exact stop _ (beyond n (by omega) le) isPartial
  · intro value isPrefix
    rw [split] at isPrefix
    rcases List.prefix_or_prefix_of_prefix isPrefix
        (List.prefix_append _ _) with inside | outside
    · rcases List.prefix_concat_iff.mp inside with whole | inner
      · exact noWord value whole
      · exact code.not_encode_prefix_of_grown hgrown value inner
    · refine notPartial ⟨by simp, value, outside, ?_⟩
      exact fun equal => noWord value equal.symm
  · exact stop _ (split ▸ List.prefix_append _ _)

private theorem frontFrom_classified (rest grown : List β)
    (hgrown : grown = [] ∨ IsPartial code.encode grown)
    (nonempty : grown ++ rest ≠ []) :
    code.Classified (grown ++ rest) (code.frontFrom grown rest) := by
  induction rest generalizing grown with
  | nil =>
      rw [List.append_nil] at nonempty ⊢
      refine ⟨by simp [frontFrom], fun _ => ?_, by simp [frontFrom]⟩
      exact hgrown.resolve_left nonempty
  | cons unit rest induction =>
      have split : grown ++ unit :: rest = (grown ++ [unit]) ++ rest := by simp
      simp only [frontFrom]
      cases whole : code.decodeWord (grown ++ [unit]) with
      | some symbol =>
          have word := code.decodeWord_iff.mp whole
          refine ⟨?_, by simp, by simp⟩
          intro value equal
          injection equal with equal
          subst value
          rw [word, split]
          exact List.prefix_append _ _
      | none =>
          have noWord : ∀ value, code.encode value ≠ grown ++ [unit] := by
            intro value word
            rw [code.decodeWord_iff.mpr word] at whole
            cases whole
          by_cases isPartial : code.partialWord (grown ++ [unit]) = true
          · simp only [isPartial, if_true]
            rw [split]
            exact induction (grown ++ [unit])
              (.inr (code.partialWord_iff.mp isPartial)) (by simp)
          · simp only [isPartial, Bool.false_eq_true, if_false]
            exact code.classified_malformed grown rest unit hgrown noWord
              (fun found => isPartial (code.partialWord_iff.mpr found))

def toPrefixCode : PrefixCode α β where
  encode := code.encode
  front := code.frontFrom []
  encode_ne_nil := code.encode_ne_nil
  front_symbol_iff := by
    intro input symbol
    by_cases nonempty : input = []
    · subst input
      simp [frontFrom, code.encode_ne_nil symbol]
    · have classified := code.frontFrom_classified input [] (.inl rfl) nonempty
      rw [List.nil_append] at classified
      refine ⟨classified.symbol symbol, ?_⟩
      intro isPrefix
      cases found : code.frontFrom [] input with
      | symbol value =>
          have valuePrefix := classified.symbol value found
          rcases List.prefix_or_prefix_of_prefix valuePrefix isPrefix with
            inside | outside
          · rw [code.prefixFree inside]
          · rw [code.prefixFree outside]
      | truncated =>
          exact absurd isPrefix (code.not_encode_prefix_of_isPartial
            (classified.truncated found) symbol)
      | malformed width =>
          exact absurd isPrefix ((classified.malformed width found).2.1 symbol)
  front_truncated_iff := by
    intro input nonempty
    have classified := code.frontFrom_classified input [] (.inl rfl) nonempty
    rw [List.nil_append] at classified
    refine ⟨classified.truncated, ?_⟩
    intro isPartial
    cases found : code.frontFrom [] input with
    | symbol value =>
        exact absurd (classified.symbol value found)
          (code.not_encode_prefix_of_isPartial isPartial value)
    | truncated => rfl
    | malformed width =>
        exact absurd isPartial (classified.malformed width found).2.2
  front_malformed := by
    intro input width nonempty found
    have classified := code.frontFrom_classified input [] (.inl rfl) nonempty
    rw [List.nil_append] at classified
    exact (classified.malformed width found).1

end WordCode

end Cuprum.Codec
