import Cuprum.Codec.PrefixCode

namespace Cuprum.Codec

universe u v

variable {α : Type u} {β : Type v}

/-! A code synchronizes itself when the units that start its words are none of those that
continue them. -/

structure Synchronizing (code : PrefixCode α β) (isTail : β → Prop) : Prop where
  lead : ∀ {symbol unit rest}, code.encode symbol = unit :: rest → ¬isTail unit
  tail : ∀ {symbol unit rest}, code.encode symbol = unit :: rest → ∀ other ∈ rest, isTail other

namespace PrefixCode

variable {code : PrefixCode α β} {isTail : β → Prop}

/-- What starts a code word or is cut from its start has its only leading unit in front. -/
theorem lead_of_prefix (sync : Synchronizing code isTail) {word : List β} {symbol : α}
    (nonempty : word ≠ []) (isPrefix : word <+: code.encode symbol) :
    ∃ unit rest, word = unit :: rest ∧ ¬isTail unit ∧ ∀ other ∈ rest, isTail other := by
  obtain ⟨unit, rest, rfl⟩ := List.exists_cons_of_ne_nil nonempty
  obtain ⟨more, whole⟩ := isPrefix
  exact ⟨unit, rest, rfl, sync.lead whole.symm,
    fun other member => sync.tail whole.symm other (List.mem_append_left more member)⟩

/-- A word that goes beyond the front `left` of the input has a continuing unit where `right`
starts. -/
theorem isTail_of_beyond (sync : Synchronizing code isTail) {left word : List β} {unit : β}
    {right : List β} {symbol : α} (nonempty : left ≠ [])
    (isPrefix : word <+: code.encode symbol) (within : word <+: left ++ unit :: right)
    (beyond : left.length < word.length) : isTail unit := by
  have covered : left ++ [unit] <+: word := by
    refine List.prefix_of_prefix_length_le ⟨right, by simp⟩ within ?_
    rwa [List.length_append, List.length_singleton]
  obtain ⟨first, rest, rfl⟩ := List.exists_cons_of_ne_nil nonempty
  obtain ⟨lead, others, whole, _, continues⟩ :=
    lead_of_prefix sync (List.cons_ne_nil _ _) (covered.trans isPrefix)
  obtain ⟨rfl, rfl⟩ := List.cons.inj whole
  exact continues unit (by simp)

/-- A truncated word is decoded no further, whatever malformed input precedes it. -/
theorem scan_partial_append (sync : Synchronizing code isTail) {left right : List β}
    (leftPartial : IsPartial code.encode left) (rightPartial : IsPartial code.encode right) :
    (code.scan (left ++ right)).2 = right := by
  have ⟨shown, symbol, isPrefix, _⟩ := rightPartial
  obtain ⟨unit, rest, rfl, leads, _⟩ := lead_of_prefix sync shown isPrefix
  have nonempty : left ++ unit :: rest ≠ [] := by simp
  have stuck : ∀ {word : List β} {symbol : α}, word <+: code.encode symbol →
      word <+: left ++ unit :: rest → word.length ≤ left.length := by
    intro word symbol isPrefix within
    by_contra beyond
    exact leads (isTail_of_beyond sync leftPartial.1 isPrefix within (Nat.lt_of_not_le beyond))
  cases found : code.front (left ++ unit :: rest) with
  | symbol value =>
      have within := code.front_symbol_iff.mp found
      have inside : code.encode value <+: left :=
        List.prefix_of_prefix_length_le within (List.prefix_append _ _)
          (stuck List.prefix_rfl within)
      exact absurd leftPartial (code.not_isPartial_of_encode_prefix inside)
  | truncated =>
      obtain ⟨_, other, isPrefix, _⟩ := (code.front_truncated_iff nonempty).mp found
      have short := stuck isPrefix List.prefix_rfl
      rw [List.length_append, List.length_cons] at short
      omega
  | malformed width =>
      have subpart := code.front_malformed nonempty found
      have wide : left.length ≤ width :=
        subpart.maximal left.length (by simp) (by rwa [List.take_left])
      have narrow : width ≤ left.length := by
        by_contra beyond
        have positive := List.length_pos_iff.mpr leftPartial.1
        obtain ⟨_, other, isPrefix, _⟩ := subpart.isPartial (by omega)
        have short := stuck isPrefix (List.take_prefix _ _)
        rw [List.length_take, Nat.min_eq_left subpart.le_length] at short
        exact beyond short
      rw [code.scan_of_malformed nonempty found, Nat.le_antisymm narrow wide, List.drop_left,
        code.scan_of_isPartial rightPartial]

/-- The undecoded tail is the one suffix of the input that is a truncated word. -/
theorem scan_partial_suffix (sync : Synchronizing code isTail) {input word : List β}
    (isPartial : IsPartial code.encode word) (isSuffix : word <:+ input) :
    (code.scan input).2 = word := by
  obtain ⟨front, rfl⟩ := isSuffix
  rw [code.scan_append]
  rcases code.scan_tail front with empty | held
  · rw [empty, List.nil_append, code.scan_of_isPartial isPartial]
  · exact scan_partial_append sync held isPartial

end PrefixCode

/-! What stands before the undecoded tail has been decoded. -/

theorem MaximalSubpart.of_prefix {encode : α → List β} {front input : List β} {width : Nat}
    (subpart : MaximalSubpart encode input width) (isPrefix : front <+: input)
    (within : width ≤ front.length) : MaximalSubpart encode front width where
  pos := subpart.pos
  le_length := within
  isPartial wide := by
    obtain ⟨rest, rfl⟩ := isPrefix
    have whole := subpart.isPartial wide
    rwa [List.take_append_of_le_length within] at whole
  maximal n inside isPartial := by
    obtain ⟨rest, rfl⟩ := isPrefix
    refine subpart.maximal n (inside.trans (by simp)) ?_
    rwa [List.take_append_of_le_length inside]

theorem PrefixCode.lossy_scan (code : PrefixCode α β) (input : List β) :
    ∃ front, input = front ++ (code.scan input).2 ∧ code.Lossy front (code.scan input).1 := by
  induction input using code.scan_cases with
  | nil => exact ⟨[], by simp, by simpa using Lossy.nil⟩
  | symbol value rest induction =>
      obtain ⟨front, whole, lossy⟩ := induction
      rw [code.scan_encode_append]
      exact ⟨code.encode value ++ front, by rw [List.append_assoc, ← whole], .symbol value lossy⟩
  | malformed input width nonempty found induction =>
      obtain ⟨front, whole, lossy⟩ := induction
      have subpart := code.front_malformed nonempty found
      rw [code.scan_of_malformed nonempty found]
      have cut : input = (input.take width ++ front) ++ (code.scan (input.drop width)).2 := by
        rw [List.append_assoc, ← whole, List.take_append_drop]
      have isPrefix : input.take width ++ front <+: input := ⟨_, cut.symm⟩
      have taken : (input.take width).length = width :=
        List.length_take_of_le subpart.le_length
      refine ⟨input.take width ++ front, cut, .replaced ?_ ?_ (subpart.of_prefix isPrefix ?_) ?_⟩
      · have positive := subpart.pos
        intro empty
        have := congrArg List.length empty
        rw [List.length_append, taken, List.length_nil] at this
        omega
      · intro symbol isWord
        rw [code.front_symbol_iff.mpr (isWord.trans isPrefix)] at found
        cases found
      · rw [List.length_append, taken]
        exact Nat.le_add_right _ _
      · rwa [List.drop_left' taken]
  | truncated input isPartial =>
      rw [code.scan_of_isPartial isPartial]
      exact ⟨[], rfl, .nil⟩

end Cuprum.Codec
