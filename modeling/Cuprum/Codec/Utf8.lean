import Cuprum.Codec.WordCode

namespace Cuprum.Codec.Utf8

/-! The well-formed byte sequences of UTF-8, one case for each width.  The lead
byte narrows the range of the byte after it. -/

def IsTail (byte : Nat) : Prop := 0x80 ≤ byte ∧ byte ≤ 0xBF

def IsSecond (lead byte : Nat) : Prop :=
  IsTail byte ∧ (lead = 0xE0 → 0xA0 ≤ byte) ∧ (lead = 0xED → byte ≤ 0x9F) ∧
    (lead = 0xF0 → 0x90 ≤ byte) ∧ (lead = 0xF4 → byte ≤ 0x8F)

def IsWord : List Nat → Prop
  | [a] => a ≤ 0x7F
  | [a, b] => (0xC2 ≤ a ∧ a ≤ 0xDF) ∧ IsTail b
  | [a, b, c] => (0xE0 ≤ a ∧ a ≤ 0xEF) ∧ IsSecond a b ∧ IsTail c
  | [a, b, c, d] =>
      (0xF0 ≤ a ∧ a ≤ 0xF4) ∧ IsSecond a b ∧ IsTail c ∧ IsTail d
  | _ => False

/-- The nonempty proper prefixes of words. -/
def IsPartialWord : List Nat → Prop
  | [a] => 0xC2 ≤ a ∧ a ≤ 0xF4
  | [a, b] => (0xE0 ≤ a ∧ a ≤ 0xF4) ∧ IsSecond a b
  | [a, b, c] => (0xF0 ≤ a ∧ a ≤ 0xF4) ∧ IsSecond a b ∧ IsTail c
  | _ => False

instance : DecidablePred IsTail := fun _ => inferInstanceAs (Decidable (_ ∧ _))

instance (lead byte : Nat) : Decidable (IsSecond lead byte) :=
  inferInstanceAs (Decidable (_ ∧ _ ∧ _ ∧ _ ∧ _))

instance : DecidablePred IsWord := fun word =>
  match word with
  | [] => isFalse id
  | [a] => inferInstanceAs (Decidable (a ≤ 0x7F))
  | [_, _] => inferInstanceAs (Decidable (_ ∧ _))
  | [_, _, _] => inferInstanceAs (Decidable (_ ∧ _ ∧ _))
  | [_, _, _, _] => inferInstanceAs (Decidable (_ ∧ _ ∧ _ ∧ _))
  | _ :: _ :: _ :: _ :: _ :: _ => isFalse id

instance : DecidablePred IsPartialWord := fun word =>
  match word with
  | [] => isFalse id
  | [_] => inferInstanceAs (Decidable (_ ∧ _))
  | [_, _] => inferInstanceAs (Decidable (_ ∧ _))
  | [_, _, _] => inferInstanceAs (Decidable (_ ∧ _ ∧ _))
  | _ :: _ :: _ :: _ :: _ => isFalse id

def value : List Nat → Nat
  | [a] => a
  | [a, b] => 64 * (a - 0xC0) + (b - 0x80)
  | [a, b, c] => 4096 * (a - 0xE0) + 64 * (b - 0x80) + (c - 0x80)
  | [a, b, c, d] =>
      262144 * (a - 0xF0) + 4096 * (b - 0x80) + 64 * (c - 0x80) + (d - 0x80)
  | _ => 0

theorem value_two (a b : Nat) :
    value [a, b] = 64 * (a - 0xC0) + (b - 0x80) := rfl

theorem value_three (a b c : Nat) :
    value [a, b, c] = 4096 * (a - 0xE0) + 64 * (b - 0x80) + (c - 0x80) := rfl

theorem value_four (a b c d : Nat) :
    value [a, b, c, d] =
      262144 * (a - 0xF0) + 4096 * (b - 0x80) + 64 * (c - 0x80) + (d - 0x80) :=
  rfl

def encodeValue (v : Nat) : List Nat :=
  if v ≤ 0x7F then [v]
  else if v ≤ 0x7FF then [v / 64 % 0x20 + 0xC0, v % 0x40 + 0x80]
  else if v ≤ 0xFFFF then
    [v / 4096 % 0x10 + 0xE0, v / 64 % 0x40 + 0x80, v % 0x40 + 0x80]
  else
    [v / 262144 % 0x08 + 0xF0, v / 4096 % 0x40 + 0x80, v / 64 % 0x40 + 0x80,
      v % 0x40 + 0x80]

theorem isWord_encodeValue {v : Nat} (valid : v.isValidChar) :
    IsWord (encodeValue v) := by
  unfold Nat.isValidChar at valid
  unfold encodeValue
  split_ifs <;> simp only [IsWord, IsSecond, IsTail] <;> omega

theorem value_encodeValue {v : Nat} (valid : v.isValidChar) :
    value (encodeValue v) = v := by
  unfold Nat.isValidChar at valid
  unfold encodeValue
  split_ifs
  · rfl
  · have := value_two (v / 64 % 0x20 + 0xC0) (v % 0x40 + 0x80)
    omega
  · have := value_three (v / 4096 % 0x10 + 0xE0) (v / 64 % 0x40 + 0x80)
      (v % 0x40 + 0x80)
    omega
  · have := value_four (v / 262144 % 0x08 + 0xF0) (v / 4096 % 0x40 + 0x80)
      (v / 64 % 0x40 + 0x80) (v % 0x40 + 0x80)
    omega

/-- Every well-formed word is the encoding of the scalar value it carries. -/
theorem encodeValue_value : ∀ {word : List Nat}, IsWord word →
    (value word).isValidChar ∧ encodeValue (value word) = word
  | [a], hword => by
      simp only [IsWord] at hword
      have carried : value [a] = a := rfl
      unfold Nat.isValidChar encodeValue
      rw [carried, if_pos hword]
      exact ⟨by omega, rfl⟩
  | [a, b], hword => by
      simp only [IsWord, IsTail] at hword
      have carried := value_two a b
      generalize value [a, b] = v at carried ⊢
      unfold Nat.isValidChar encodeValue
      rw [if_neg (by omega), if_pos (by omega)]
      simp only [List.cons.injEq, and_true]
      omega
  | [a, b, c], hword => by
      simp only [IsWord, IsSecond, IsTail] at hword
      have carried := value_three a b c
      generalize value [a, b, c] = v at carried ⊢
      unfold Nat.isValidChar encodeValue
      rw [if_neg (by omega), if_neg (by omega), if_pos (by omega)]
      simp only [List.cons.injEq, and_true]
      omega
  | [a, b, c, d], hword => by
      simp only [IsWord, IsSecond, IsTail] at hword
      have carried := value_four a b c d
      generalize value [a, b, c, d] = v at carried ⊢
      unfold Nat.isValidChar encodeValue
      rw [if_neg (by omega), if_neg (by omega), if_neg (by omega)]
      simp only [List.cons.injEq, and_true]
      omega
  | [], hword => hword.elim
  | _ :: _ :: _ :: _ :: _ :: _, hword => hword.elim

theorem isPartialWord_of_prefix {word longer : List Nat} (nonempty : word ≠ [])
    (hword : IsWord longer) (isPrefix : word <+: longer) (proper : word ≠ longer) :
    IsPartialWord word := by
  obtain ⟨rest, rfl⟩ := isPrefix
  have restNonempty : rest ≠ [] := by
    rintro rfl
    simp at proper
  match word, rest with
  | [], _ => exact absurd rfl nonempty
  | _, [] => exact absurd rfl restNonempty
  | [_], [_] | [_], [_, _] | [_], [_, _, _] | [_, _], [_] | [_, _], [_, _]
  | [_, _, _], [_] =>
      simp only [List.cons_append, List.nil_append, IsWord, IsTail, IsSecond] at hword
      simp only [IsPartialWord, IsSecond, IsTail]
      omega
  | [_], _ :: _ :: _ :: _ :: _ | [_, _], _ :: _ :: _ :: _
  | [_, _, _], _ :: _ :: _ =>
      exact absurd hword id
  | _ :: _ :: _ :: _ :: word, _ :: _ =>
      cases word <;> exact absurd hword id

/-- A partial word is completed by the least bytes its lead byte admits. -/
def completion : List Nat → List Nat
  | [a] =>
      if a ≤ 0xDF then [0x80]
      else if a = 0xE0 then [0xA0, 0x80]
      else if a ≤ 0xEF then [0x80, 0x80]
      else if a = 0xF0 then [0x90, 0x80, 0x80]
      else [0x80, 0x80, 0x80]
  | [a, _] => if a ≤ 0xEF then [0x80] else [0x80, 0x80]
  | _ => [0x80]

theorem isWord_completion : ∀ {word : List Nat}, IsPartialWord word →
    IsWord (word ++ completion word)
  | [a], partialWord => by
      simp only [IsPartialWord] at partialWord
      simp only [completion]
      split_ifs <;> simp only [List.cons_append, List.nil_append, IsWord, IsSecond,
        IsTail] <;> omega
  | [a, b], partialWord => by
      simp only [IsPartialWord, IsSecond, IsTail] at partialWord
      simp only [completion]
      split_ifs <;> simp only [List.cons_append, List.nil_append, IsWord, IsSecond,
        IsTail] <;> omega
  | [a, b, c], partialWord => by
      simp only [IsPartialWord, IsSecond, IsTail] at partialWord
      simp only [completion, List.cons_append, List.nil_append, IsWord, IsSecond,
        IsTail]
      omega
  | [], partialWord => partialWord.elim
  | _ :: _ :: _ :: _ :: _, partialWord => partialWord.elim

theorem completion_ne_nil (word : List Nat) : completion word ≠ [] := by
  unfold completion
  split
  · split_ifs <;> simp
  · split_ifs <;> simp
  · simp

/-- No word is a proper prefix of another. -/
theorem not_isPartialWord_of_isWord : ∀ {word : List Nat}, IsWord word →
    ¬ IsPartialWord word
  | [a], hword => by
      simp only [IsWord] at hword
      simp only [IsPartialWord]
      omega
  | [a, b], hword => by
      simp only [IsWord] at hword
      simp only [IsPartialWord]
      omega
  | [a, b, c], hword => by
      simp only [IsWord] at hword
      simp only [IsPartialWord]
      omega
  | _ :: _ :: _ :: _ :: _, _ => id
  | [], _ => id

theorem map_utf8EncodeChar (c : Char) :
    (String.utf8EncodeChar c).map UInt8.toNat = encodeValue c.toNat := by
  unfold String.utf8EncodeChar encodeValue
  simp only [show c.val.toNat = c.toNat from rfl]
  have bound : c.toNat < 0x110000 := by
    have valid := c.valid
    change c.toNat.isValidChar at valid
    unfold Nat.isValidChar at valid
    omega
  split_ifs <;> simp only [List.map_cons, List.map_nil, UInt8.toNat_ofNat',
    List.cons.injEq, and_true] <;> omega

theorem map_toNat_injective {first second : List UInt8}
    (equal : first.map UInt8.toNat = second.map UInt8.toNat) : first = second :=
  List.map_injective_iff.mpr (fun _ _ => UInt8.toNat_inj.mp) equal

/-- Bytes that spell a sequence of byte values. -/
def ofNats (values : List Nat) : List UInt8 := values.map UInt8.ofNat

theorem map_ofNats {values : List Nat} (small : ∀ v ∈ values, v < 256) :
    (ofNats values).map UInt8.toNat = values := by
  induction values with
  | nil => rfl
  | cons v rest induction =>
      simp only [List.mem_cons, forall_eq_or_imp] at small
      change (UInt8.ofNat v).toNat :: (ofNats rest).map UInt8.toNat = v :: rest
      rw [induction small.2, UInt8.toNat_ofNat', Nat.mod_eq_of_lt small.1]

theorem completion_lt (word : List Nat) : ∀ v ∈ completion word, v < 256 := by
  unfold completion
  split
  · split_ifs <;> simp
  · split_ifs <;> simp
  · simp

theorem isValidChar_toNat (c : Char) : c.toNat.isValidChar := c.valid

theorem isWord_encode (c : Char) :
    IsWord ((String.utf8EncodeChar c).map UInt8.toNat) :=
  map_utf8EncodeChar c ▸ isWord_encodeValue (isValidChar_toNat c)

theorem toNat_ofNat_of_valid {v : Nat} (valid : v.isValidChar) :
    (Char.ofNat v).toNat = v := by
  rw [Char.ofNat, dif_pos valid]
  rfl

theorem encode_ofNat_value {word : List UInt8}
    (hword : IsWord (word.map UInt8.toNat)) :
    String.utf8EncodeChar (Char.ofNat (value (word.map UInt8.toNat))) = word := by
  obtain ⟨valid, encoded⟩ := encodeValue_value hword
  apply map_toNat_injective
  rw [map_utf8EncodeChar, toNat_ofNat_of_valid valid, encoded]

def decodeWord (word : List UInt8) : Option Char :=
  if IsWord (word.map UInt8.toNat) then
    some (Char.ofNat (value (word.map UInt8.toNat)))
  else
    none

theorem decodeWord_iff {word : List UInt8} {c : Char} :
    decodeWord word = some c ↔ String.utf8EncodeChar c = word := by
  unfold decodeWord
  constructor
  · intro decoded
    split_ifs at decoded with hword
    injection decoded with decoded
    rw [← decoded]
    exact encode_ofNat_value hword
  · rintro rfl
    rw [if_pos (isWord_encode c), map_utf8EncodeChar,
      value_encodeValue (isValidChar_toNat c), Char.ofNat_toNat]

theorem isPartialWord_iff {word : List UInt8} :
    IsPartialWord (word.map UInt8.toNat) ↔
      IsPartial String.utf8EncodeChar word := by
  constructor
  · intro partialWord
    have complete := isWord_completion partialWord
    have spelled : (word ++ ofNats (completion (word.map UInt8.toNat))).map
        UInt8.toNat = word.map UInt8.toNat ++ completion (word.map UInt8.toNat) := by
      rw [List.map_append, map_ofNats (completion_lt _)]
    rw [← spelled] at complete
    have encoded := encode_ofNat_value complete
    refine ⟨?_, _, encoded ▸ List.prefix_append _ _, ?_⟩
    · rintro rfl
      exact partialWord
    · rw [encoded]
      intro equal
      have empty := List.append_cancel_left ((List.append_nil word).trans equal)
      exact completion_ne_nil (word.map UInt8.toNat)
        (List.map_eq_nil_iff.mp empty.symm)
  · rintro ⟨nonempty, c, isPrefix, proper⟩
    refine isPartialWord_of_prefix (by simpa using nonempty) (isWord_encode c)
      (isPrefix.map _) ?_
    exact fun equal => proper (map_toNat_injective equal)

theorem prefixFree {first second : Char}
    (isPrefix : String.utf8EncodeChar first <+: String.utf8EncodeChar second) :
    first = second := by
  by_cases equal : String.utf8EncodeChar first = String.utf8EncodeChar second
  · apply Option.some.inj
    rw [← decodeWord_iff.mpr rfl, ← decodeWord_iff.mpr rfl, equal]
  · refine absurd (isPartialWord_iff.mpr ⟨?_, second, isPrefix, equal⟩)
      (not_isPartialWord_of_isWord (isWord_encode first))
    intro empty
    have hword := isWord_encode first
    rw [empty] at hword
    exact hword

/-- UTF-8 over Lean's own encoder. -/
def words : WordCode Char UInt8 where
  encode := String.utf8EncodeChar
  decodeWord := decodeWord
  partialWord word := decide (IsPartialWord (word.map UInt8.toNat))
  encode_ne_nil c empty := by
    have hword := isWord_encode c
    rw [empty] at hword
    exact hword
  decodeWord_iff := decodeWord_iff
  partialWord_iff := decide_eq_true_iff.trans isPartialWord_iff
  prefixFree := prefixFree

end Cuprum.Codec.Utf8

namespace Cuprum.Codec

def utf8 : PrefixCode Char UInt8 := Utf8.words.toPrefixCode

@[simp] theorem utf8_encode (c : Char) :
    utf8.encode c = String.utf8EncodeChar c := rfl

end Cuprum.Codec
