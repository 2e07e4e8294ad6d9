import Mathlib.Data.List.Infix

namespace Cuprum.Codec

universe u v

variable {α : Type u} {β : Type v}

/-- A nonempty proper prefix of some code word. -/
def IsPartial (encode : α → List β) (word : List β) : Prop :=
  word ≠ [] ∧ ∃ symbol, word <+: encode symbol ∧ word ≠ encode symbol

/-- The front of an input on which no code word stands: its longest partial
prefix, or one unit when it has none. -/
structure MaximalSubpart (encode : α → List β) (input : List β)
    (width : Nat) : Prop where
  pos : 0 < width
  le_length : width ≤ input.length
  isPartial : 1 < width → IsPartial encode (input.take width)
  maximal : ∀ n, n ≤ input.length → IsPartial encode (input.take n) → n ≤ width

inductive Front (α : Type u)
  | symbol (value : α)
  | malformed (width : Nat)
  | truncated

/-- A prefix code together with the classifier of an input's front.  The three
laws fix the classifier, so every decoder over it is determined by `encode`. -/
structure PrefixCode (α : Type u) (β : Type v) where
  encode : α → List β
  front : List β → Front α
  encode_ne_nil : ∀ symbol, encode symbol ≠ []
  front_symbol_iff : ∀ {input symbol},
    front input = .symbol symbol ↔ encode symbol <+: input
  front_truncated_iff : ∀ {input}, input ≠ [] →
    (front input = .truncated ↔ IsPartial encode input)
  front_malformed : ∀ {input width}, input ≠ [] →
    front input = .malformed width → MaximalSubpart encode input width

theorem MaximalSubpart.unique {encode : α → List β} {input : List β}
    {first second : Nat} (hfirst : MaximalSubpart encode input first)
    (hsecond : MaximalSubpart encode input second) : first = second := by
  have upper {left right : Nat} (hleft : MaximalSubpart encode input left)
      (hright : MaximalSubpart encode input right) : left ≤ right := by
    by_cases wide : 1 < left
    · exact hright.maximal left hleft.le_length (hleft.isPartial wide)
    · have := hright.pos
      omega
  exact Nat.le_antisymm (upper hfirst hsecond) (upper hsecond hfirst)

theorem IsPartial.of_prefix {encode : α → List β} {front whole : List β}
    (nonempty : front ≠ []) (isPrefix : front <+: whole)
    (isPartial : IsPartial encode whole) : IsPartial encode front := by
  obtain ⟨_, symbol, wholePrefix, notWhole⟩ := isPartial
  refine ⟨nonempty, symbol, isPrefix.trans wholePrefix, ?_⟩
  rintro rfl
  exact notWhole (wholePrefix.eq_of_length
    (Nat.le_antisymm wholePrefix.length_le isPrefix.length_le))

namespace PrefixCode

variable (code : PrefixCode α β)

def encodeAll (symbols : List α) : List β :=
  symbols.flatMap code.encode

@[simp] theorem encodeAll_nil : code.encodeAll [] = [] := rfl

@[simp] theorem encodeAll_cons (symbol : α) (rest : List α) :
    code.encodeAll (symbol :: rest) = code.encode symbol ++ code.encodeAll rest :=
  rfl

theorem encode_length_pos (symbol : α) : 0 < (code.encode symbol).length :=
  List.length_pos_iff.mpr (code.encode_ne_nil symbol)

theorem front_encode_append (symbol : α) (rest : List β) :
    code.front (code.encode symbol ++ rest) = .symbol symbol :=
  code.front_symbol_iff.mpr (List.prefix_append _ _)

theorem encode_prefix_unique {input : List β} {first second : α}
    (hfirst : code.encode first <+: input)
    (hsecond : code.encode second <+: input) : first = second := by
  have agree := (code.front_symbol_iff.mpr hfirst).symm.trans
    (code.front_symbol_iff.mpr hsecond)
  injection agree

theorem not_isPartial_of_encode_prefix {input : List β} {symbol : α}
    (isPrefix : code.encode symbol <+: input) :
    ¬ IsPartial code.encode input := by
  intro isPartial
  have nonempty : input ≠ [] := isPartial.1
  have symbolFront := code.front_symbol_iff.mpr isPrefix
  rw [(code.front_truncated_iff nonempty).mpr isPartial] at symbolFront
  cases symbolFront

/-! A malformed front stays malformed, with the same width, whatever follows:
only a truncated input can be completed. -/

theorem front_append_of_malformed {input : List β} {width : Nat}
    (nonempty : input ≠ []) (malformed : code.front input = .malformed width)
    (rest : List β) : code.front (input ++ rest) = .malformed width := by
  have appended : input ++ rest ≠ [] := by simp [nonempty]
  have noSymbol : ∀ symbol, ¬ code.encode symbol <+: input := by
    intro symbol isPrefix
    rw [code.front_symbol_iff.mpr isPrefix] at malformed
    cases malformed
  have notPartial : ¬ IsPartial code.encode input := by
    intro isPartial
    rw [(code.front_truncated_iff nonempty).mpr isPartial] at malformed
    cases malformed
  cases whole : code.front (input ++ rest) with
  | symbol symbol =>
      have isPrefix := code.front_symbol_iff.mp whole
      rcases List.prefix_or_prefix_of_prefix isPrefix
          (List.prefix_append input rest) with inside | outside
      · exact absurd inside (noSymbol symbol)
      · refine absurd ⟨nonempty, symbol, outside, ?_⟩ notPartial
        rintro equal
        exact noSymbol symbol (equal ▸ List.prefix_rfl)
  | truncated =>
      have isPartial := (code.front_truncated_iff appended).mp whole
      exact absurd (isPartial.of_prefix nonempty (List.prefix_append _ _))
        notPartial
  | malformed other =>
      have short := code.front_malformed nonempty malformed
      have long := code.front_malformed appended whole
      have transported : MaximalSubpart code.encode (input ++ rest) width := by
        refine ⟨short.pos, ?_, ?_, ?_⟩
        · rw [List.length_append]
          exact short.le_length.trans (Nat.le_add_right _ _)
        · intro wide
          rw [List.take_append_of_le_length short.le_length]
          exact short.isPartial wide
        · intro n _ isPartial
          by_cases inside : n ≤ input.length
          · rw [List.take_append_of_le_length inside] at isPartial
            exact short.maximal n inside isPartial
          · have covers : input <+: (input ++ rest).take n := by
              rw [List.take_append]
              rw [List.take_of_length_le (Nat.le_of_not_le inside)]
              exact List.prefix_append _ _
            exact absurd (isPartial.of_prefix nonempty covers) notPartial
      rw [long.unique transported]

/-- The lossy decodings of an input: `none` stands for one replacement. -/
inductive Lossy : List β → List (Option α) → Prop
  | nil : Lossy [] []
  | symbol (value : α) : Lossy rest out →
      Lossy (code.encode value ++ rest) (some value :: out)
  | replaced : input ≠ [] → (∀ value, ¬ code.encode value <+: input) →
      MaximalSubpart code.encode input width → Lossy (input.drop width) out →
      Lossy input (none :: out)

theorem Lossy.unique {input : List β} {first second : List (Option α)}
    (hfirst : code.Lossy input first) (hsecond : code.Lossy input second) :
    first = second := by
  induction hfirst generalizing second with
  | nil =>
      generalize empty : ([] : List β) = input at hsecond
      cases hsecond with
      | nil => rfl
      | symbol value _ =>
          have := code.encode_ne_nil value
          simp_all
      | replaced nonempty _ _ _ => exact absurd empty.symm nonempty
  | @symbol rest out value _ induction =>
      generalize shape : code.encode value ++ rest = input at hsecond
      cases hsecond with
      | nil =>
          have := code.encode_ne_nil value
          simp_all
      | @symbol otherRest otherOut other otherTail =>
          have isPrefix : code.encode value <+: code.encode other ++ otherRest :=
            shape ▸ List.prefix_append _ _
          have same : value = other :=
            code.encode_prefix_unique isPrefix (List.prefix_append _ _)
          subst other
          have restEqual := List.append_cancel_left shape
          subst otherRest
          rw [induction otherTail]
      | replaced _ noSymbol _ _ =>
          exact absurd (shape ▸ List.prefix_append _ _) (noSymbol value)
  | @replaced input width out nonempty noSymbol subpart _ induction =>
      cases hsecond with
      | nil => exact absurd rfl nonempty
      | symbol value _ =>
          exact absurd (List.prefix_append _ _) (noSymbol value)
      | replaced _ _ otherSubpart otherTail =>
          rw [otherSubpart.unique subpart] at otherTail
          rw [induction otherTail]

/-- Decode as far as the input determines the result, and return the truncated
tail, if any, undecoded. -/
def scan (input : List β) : List (Option α) × List β :=
  if _nonempty : input = [] then ([], [])
  else
    match _found : code.front input with
    | .symbol value =>
        let rest := scan (input.drop (code.encode value).length)
        (some value :: rest.1, rest.2)
    | .malformed width =>
        let rest := scan (input.drop width)
        (none :: rest.1, rest.2)
    | .truncated => ([], input)
termination_by input.length
decreasing_by
  · have := code.encode_length_pos value
    have := (code.front_symbol_iff.mp _found).length_le
    rw [List.length_drop]
    omega
  · have subpart := code.front_malformed _nonempty _found
    have := subpart.pos
    have := subpart.le_length
    rw [List.length_drop]
    omega

@[simp] theorem scan_nil : code.scan [] = ([], []) := by
  rw [scan]
  simp

@[simp] theorem scan_encode_append (symbol : α) (rest : List β) :
    code.scan (code.encode symbol ++ rest) =
      (some symbol :: (code.scan rest).1, (code.scan rest).2) := by
  have nonempty : code.encode symbol ++ rest ≠ [] := by
    simp [code.encode_ne_nil symbol]
  rw [scan, dif_neg nonempty]
  split
  next value found =>
    rw [code.front_encode_append] at found
    injection found with equal
    subst value
    simp
  next found =>
    rw [code.front_encode_append] at found
    cases found
  next found =>
    rw [code.front_encode_append] at found
    cases found

theorem scan_of_malformed {input : List β} {width : Nat}
    (nonempty : input ≠ []) (malformed : code.front input = .malformed width) :
    code.scan input =
      (none :: (code.scan (input.drop width)).1,
        (code.scan (input.drop width)).2) := by
  rw [scan, dif_neg nonempty]
  split
  next found =>
    rw [malformed] at found
    cases found
  next other found =>
    rw [malformed] at found
    injection found with equal
    subst other
    rfl
  next found =>
    rw [malformed] at found
    cases found

theorem scan_of_isPartial {input : List β}
    (isPartial : IsPartial code.encode input) : code.scan input = ([], input) := by
  have nonempty : input ≠ [] := isPartial.1
  have truncated := (code.front_truncated_iff nonempty).mpr isPartial
  rw [scan, dif_neg nonempty]
  split
  next found =>
    rw [truncated] at found
    cases found
  next found =>
    rw [truncated] at found
    cases found
  next => rfl

theorem scan_encodeAll_append (symbols : List α) (rest : List β) :
    code.scan (code.encodeAll symbols ++ rest) =
      (symbols.map some ++ (code.scan rest).1, (code.scan rest).2) := by
  induction symbols with
  | nil => simp
  | cons symbol symbols induction =>
      rw [encodeAll_cons, List.append_assoc, scan_encode_append, induction]
      simp

/-- Every input is empty, starts with a code word, starts with a malformed
subpart, or is a truncated code word as a whole. -/
theorem scan_cases {motive : List β → Prop} (input : List β)
    (nil : motive [])
    (symbol : ∀ value rest, motive rest → motive (code.encode value ++ rest))
    (malformed : ∀ input width, input ≠ [] →
      code.front input = .malformed width → motive (input.drop width) →
      motive input)
    (truncated : ∀ input, IsPartial code.encode input → motive input) :
    motive input := by
  induction length : input.length using Nat.strongRecOn generalizing input with
  | ind n induction =>
      by_cases empty : input = []
      · exact empty ▸ nil
      · cases found : code.front input with
        | symbol value =>
            obtain ⟨rest, rfl⟩ := code.front_symbol_iff.mp found
            have := code.encode_length_pos value
            refine symbol value rest (induction rest.length ?_ rest rfl)
            rw [← length, List.length_append]
            omega
        | malformed width =>
            have subpart := code.front_malformed empty found
            have := subpart.pos
            have := subpart.le_length
            refine malformed input width empty found
              (induction (input.drop width).length ?_ _ rfl)
            rw [← length, List.length_drop]
            omega
        | truncated =>
            exact truncated input ((code.front_truncated_iff empty).mp found)

/-- The longest run of code words at the front of an input, and what stops it. -/
theorem exists_split (input : List β) :
    ∃ symbols rest, input = code.encodeAll symbols ++ rest ∧
      (rest = [] ∨ (rest ≠ [] ∧ ∃ width, code.front rest = .malformed width) ∨
        IsPartial code.encode rest) := by
  induction input using code.scan_cases with
  | nil => exact ⟨[], [], rfl, .inl rfl⟩
  | symbol value rest induction =>
      obtain ⟨symbols, stopped, rfl, stops⟩ := induction
      exact ⟨value :: symbols, stopped, by simp, stops⟩
  | malformed input width nonempty found =>
      exact ⟨[], input, rfl, .inr (.inl ⟨nonempty, width, found⟩)⟩
  | truncated input isPartial => exact ⟨[], input, rfl, .inr (.inr isPartial)⟩

theorem scan_tail (input : List β) :
    (code.scan input).2 = [] ∨ IsPartial code.encode (code.scan input).2 := by
  induction input using code.scan_cases with
  | nil => simp
  | symbol value rest induction => simpa using induction
  | malformed input width nonempty found induction =>
      rw [code.scan_of_malformed nonempty found]
      exact induction
  | truncated input isPartial =>
      rw [code.scan_of_isPartial isPartial]
      exact Or.inr isPartial

theorem scan_tail_suffix (input : List β) : (code.scan input).2 <:+ input := by
  induction input using code.scan_cases with
  | nil => simp
  | symbol value rest induction =>
      rw [scan_encode_append]
      exact induction.trans (List.suffix_append _ _)
  | malformed input width nonempty found induction =>
      rw [code.scan_of_malformed nonempty found]
      exact induction.trans (List.drop_suffix _ _)
  | truncated input isPartial =>
      rw [code.scan_of_isPartial isPartial]

/-- Decoding is independent of where the input is cut: the rest is decoded
after the tail the first part left undecoded. -/
theorem scan_append (left right : List β) :
    code.scan (left ++ right) =
      ((code.scan left).1 ++ (code.scan ((code.scan left).2 ++ right)).1,
        (code.scan ((code.scan left).2 ++ right)).2) := by
  induction left using code.scan_cases with
  | nil => simp
  | symbol value rest induction =>
      rw [List.append_assoc, scan_encode_append, scan_encode_append, induction]
      simp
  | malformed input width nonempty found induction =>
      have wide := (code.front_malformed nonempty found).le_length
      have appended : input ++ right ≠ [] := by simp [nonempty]
      rw [code.scan_of_malformed nonempty found,
        code.scan_of_malformed appended
          (code.front_append_of_malformed nonempty found right),
        List.drop_append_of_le_length wide, induction]
      simp
  | truncated input isPartial =>
      rw [code.scan_of_isPartial isPartial]
      simp

/-- The whole-input decoding: a truncated tail becomes one replacement. -/
def decodeLossy (input : List β) : List (Option α) :=
  match code.scan input with
  | (decoded, []) => decoded
  | (decoded, _ :: _) => decoded ++ [none]

theorem decodeLossy_eq (input : List β) :
    code.decodeLossy input =
      (code.scan input).1 ++ (if (code.scan input).2 = [] then [] else [none]) := by
  unfold decodeLossy
  rcases code.scan input with ⟨decoded, tail⟩
  cases tail <;> simp

theorem lossy_of_isPartial {input : List β}
    (isPartial : IsPartial code.encode input) : code.Lossy input [none] := by
  have subpart : MaximalSubpart code.encode input input.length := by
    refine ⟨List.length_pos_iff.mpr isPartial.1, le_rfl, ?_, fun n le _ => le⟩
    intro _
    rwa [List.take_length]
  refine .replaced isPartial.1 ?_ subpart ?_
  · intro value isPrefix
    exact code.not_isPartial_of_encode_prefix isPrefix isPartial
  · rw [List.drop_length]
    exact .nil

/-- The executable decoding is the lossy decoding that `encode` alone fixes. -/
theorem lossy_decodeLossy (input : List β) :
    code.Lossy input (code.decodeLossy input) := by
  induction input using code.scan_cases with
  | nil => simpa [decodeLossy_eq] using Lossy.nil
  | symbol value rest induction =>
      have shape : code.decodeLossy (code.encode value ++ rest) =
          some value :: code.decodeLossy rest := by
        simp [decodeLossy_eq]
      rw [shape]
      exact .symbol value induction
  | malformed input width nonempty found induction =>
      have shape : code.decodeLossy input =
          none :: code.decodeLossy (input.drop width) := by
        simp [decodeLossy_eq, code.scan_of_malformed nonempty found]
      rw [shape]
      refine .replaced nonempty ?_ (code.front_malformed nonempty found) induction
      intro value isPrefix
      rw [code.front_symbol_iff.mpr isPrefix] at found
      cases found
  | truncated input isPartial =>
      have shape : code.decodeLossy input = [none] := by
        simp [decodeLossy_eq, code.scan_of_isPartial isPartial, isPartial.1]
      rw [shape]
      exact code.lossy_of_isPartial isPartial

end PrefixCode

end Cuprum.Codec
