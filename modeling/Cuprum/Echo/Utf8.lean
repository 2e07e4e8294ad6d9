import Cuprum.Echo.Truncation

namespace Cuprum.Echo

open Codec Text

/-! A line feed is no part of a longer UTF-8 word. -/

theorem not_isWord_lineFeed : ∀ {front : List Nat}, front ≠ [] →
    ¬ Utf8.IsWord (front ++ [0x0A])
  | [_], _, ⟨_, tail⟩ => absurd tail (by decide)
  | [_, _], _, ⟨_, _, tail⟩ => absurd tail (by decide)
  | [_, _, _], _, ⟨_, _, _, tail⟩ => absurd tail (by decide)
  | [_, _, _, _], _, word => word
  | _ :: _ :: _ :: _ :: _ :: _, _, word => word

theorem not_isPartialWord_lineFeed : ∀ {front : List Nat}, front ≠ [] →
    ¬ Utf8.IsPartialWord (front ++ [0x0A])
  | [_], _, ⟨_, second⟩ => absurd second.1 (by decide)
  | [_, _], _, ⟨_, _, tail⟩ => absurd tail (by decide)
  | [_, _, _], _, word => word
  | _ :: _ :: _ :: _ :: _, _, word => word

theorem not_isPartial_lineFeed {held : List UInt8} (nonempty : held ≠ [])
    (rest : List UInt8) :
    ¬ IsPartial utf8.encode (held ++ lineFeed :: rest) := by
  intro isPartial
  have front : IsPartial utf8.encode (held ++ [lineFeed]) :=
    isPartial.of_prefix (by simp) ⟨rest, by simp⟩
  have values := Utf8.isPartialWord_iff.mpr front
  rw [List.map_append] at values
  exact not_isPartialWord_lineFeed (by simpa using nonempty) values

theorem not_encode_prefix_lineFeed {held : List UInt8}
    (isPartial : IsPartial utf8.encode held) (rest : List UInt8) (c : Char) :
    ¬ utf8.encode c <+: held ++ lineFeed :: rest := by
  intro isPrefix
  have fed : held ++ [lineFeed] <+: held ++ lineFeed :: rest := ⟨rest, by simp⟩
  have notWhole : utf8.encode c ≠ held ++ [lineFeed] := by
    intro whole
    have word := Utf8.isWord_encode c
    rw [← utf8_encode, whole, List.map_append] at word
    exact not_isWord_lineFeed (by simpa using isPartial.1) word
  rcases List.prefix_or_prefix_of_prefix isPrefix fed with inner | outer
  · rcases List.prefix_concat_iff.mp inner with whole | inside
    · exact notWhole whole
    · exact utf8.not_isPartial_of_encode_prefix inside isPartial
  · exact not_isPartial_lineFeed isPartial.1 []
      ⟨by simp, c, outer, Ne.symm notWhole⟩

theorem utf8Decoder_read_lineFeed {held : List UInt8} (rest : List UInt8)
    (found : utf8Decoder.read held = .truncated) (nonempty : held ≠ []) :
    ∃ width, width ≤ held.length ∧
      utf8Decoder.read (held ++ lineFeed :: rest) = .malformed width := by
  have isPartial := (utf8.toDecoder_truncated_iff nonempty).mp found
  have longer : held ++ lineFeed :: rest ≠ [] := by simp
  cases after : utf8Decoder.read (held ++ lineFeed :: rest) with
  | symbol read width =>
      obtain ⟨c, front, _⟩ := utf8.toDecoder_symbol after
      exact absurd (utf8.front_symbol_iff.mp front)
        (not_encode_prefix_lineFeed isPartial rest c)
  | truncated =>
      exact absurd ((utf8.toDecoder_truncated_iff longer).mp after)
        (not_isPartial_lineFeed nonempty rest)
  | malformed width =>
      obtain ⟨_, front⟩ := utf8.toDecoder_malformed after
      have subpart := utf8.front_malformed longer front
      refine ⟨width, ?_, rfl⟩
      by_contra wide
      have positive := List.length_pos_iff.mpr nonempty
      have partly := subpart.isPartial (by omega)
      have split : (held ++ lineFeed :: rest).take width =
          held ++ lineFeed :: rest.take (width - held.length - 1) := by
        obtain ⟨more, equal⟩ : ∃ more, width = held.length + (more + 1) :=
          ⟨width - held.length - 1, by omega⟩
        subst equal
        rw [List.take_length_add_append, List.take_succ_cons]
        congr 3
        omega
      rw [split] at partly
      exact not_isPartial_lineFeed nonempty _ partly

theorem isValidChar_ascii {byte : UInt8} (ascii : byte.toNat < 0x80) :
    byte.toNat.isValidChar := by
  unfold Nat.isValidChar
  omega

theorem utf8EncodeChar_ascii {byte : UInt8} (ascii : byte.toNat < 0x80) :
    String.utf8EncodeChar (Char.ofNat byte.toNat) = [byte] := by
  apply Utf8.map_toNat_injective
  rw [Utf8.map_utf8EncodeChar, Utf8.toNat_ofNat_of_valid (isValidChar_ascii ascii),
    Utf8.encodeValue, if_pos (Nat.le_of_lt_succ ascii)]
  rfl

theorem ofChar_ascii {byte : UInt8} (ascii : byte.toNat < 0x80) :
    CodePoint.ofChar (Char.ofNat byte.toNat) = .ofNat byte.toNat := by
  rw [← CodePoint.ofNat_toNat, Utf8.toNat_ofNat_of_valid (isValidChar_ascii ascii)]

/-- The character a code point stands for, unless it is a lone surrogate. -/
def charOf (c : CodePoint) : Option Char :=
  if c.val.isValidChar then some (Char.ofNat c.val) else none

theorem charOf_ofChar (c : Char) : charOf (.ofChar c) = some c := by
  rw [charOf, if_pos (by exact Utf8.isValidChar_toNat c)]
  exact congrArg some (Char.ofNat_toNat c)

def utf8Codec : EchoCodec where
  decoder := utf8Decoder
  encodeChar c := (charOf c).map String.utf8EncodeChar
  stable := utf8.toDecoder_stable CodePoint.ofChar
  read_ascii byte ascii rest := by
    have read := utf8Decoder_reads (Char.ofNat byte.toNat) rest
    rwa [utf8EncodeChar_ascii ascii, ofChar_ascii ascii] at read
  encode_ascii byte ascii := by
    rw [← ofChar_ascii ascii, charOf_ofChar, Option.map_some,
      utf8EncodeChar_ascii ascii]
  read_lineFeed := utf8Decoder_read_lineFeed

theorem encodeText_utf8 (errors : ErrorPolicy) (text : List Char) :
    encodeText utf8Codec errors (text.map CodePoint.ofChar) =
      some (text.flatMap String.utf8EncodeChar) := by
  induction text with
  | nil => rfl
  | cons c text induction =>
      rw [encodeText] at induction ⊢
      rw [List.map_cons, encodeAll, induction, encodeOne]
      simp only [utf8Codec, charOf_ofChar, Option.map_some, List.flatMap_cons]

end Cuprum.Echo
