import Cuprum.Codec.Decoder
import Cuprum.Codec.Utf8
import Cuprum.Text.CodePoint

namespace Cuprum.Codec

open Text

inductive ByteOrder
  | little
  | big
  deriving DecidableEq

def halfword (order : ByteOrder) (first second : UInt8) : Nat :=
  match order with
  | .little => first.toNat + 256 * second.toNat
  | .big => 256 * first.toNat + second.toNat

def halfwordBytes (order : ByteOrder) (value : Nat) : List UInt8 :=
  match order with
  | .little => [UInt8.ofNat (value % 256), UInt8.ofNat (value / 256)]
  | .big => [UInt8.ofNat (value / 256), UInt8.ofNat (value % 256)]

theorem halfwordBytes_eq (order : ByteOrder) (value : Nat)
    (small : value < 0x10000) : ∃ first second,
      halfwordBytes order value = [first, second] ∧
        halfword order first second = value := by
  have low : (UInt8.ofNat (value % 256)).toNat = value % 256 := by
    rw [UInt8.toNat_ofNat', Nat.mod_eq_of_lt (by omega)]
  have high : (UInt8.ofNat (value / 256)).toNat = value / 256 := by
    rw [UInt8.toNat_ofNat', Nat.mod_eq_of_lt (by omega)]
  cases order with
  | little =>
      refine ⟨_, _, rfl, ?_⟩
      rw [halfword, low, high]
      omega
  | big =>
      refine ⟨_, _, rfl, ?_⟩
      rw [halfword, low, high]
      omega

/-! UTF-16: one halfword, or a high and a low surrogate. -/

def encodeUtf16 (order : ByteOrder) (c : Char) : List UInt8 :=
  if c.toNat < 0x10000 then halfwordBytes order c.toNat
  else
    halfwordBytes order (0xD800 + (c.toNat - 0x10000) / 0x400) ++
      halfwordBytes order (0xDC00 + (c.toNat - 0x10000) % 0x400)

def readUtf16 (order : ByteOrder) : List UInt8 → Reading CodePoint
  | first :: second :: rest =>
      let unit := halfword order first second
      if 0xD800 ≤ unit ∧ unit ≤ 0xDBFF then
        match rest with
        | third :: fourth :: _ =>
            let next := halfword order third fourth
            if 0xDC00 ≤ next ∧ next ≤ 0xDFFF then
              .symbol (.ofNat (0x10000 + (unit - 0xD800) * 0x400 +
                (next - 0xDC00))) 4
            else .malformed 2
        | _ => .truncated
      else if 0xDC00 ≤ unit ∧ unit ≤ 0xDFFF then .malformed 2
      else .symbol (.ofNat unit) 2
  | _ => .truncated

def utf16 (order : ByteOrder) : Decoder CodePoint UInt8 where
  read := readUtf16 order
  read_symbol {input value width} found := by
    unfold readUtf16 at found
    split at found
    · dsimp only at found
      split_ifs at found
      · split at found
        · split_ifs at found
          injection found with _ equal
          simp only [List.length_cons]
          omega
        · cases found
      · injection found with _ equal
        simp only [List.length_cons]
        omega
    · cases found
  read_malformed {input width} found := by
    unfold readUtf16 at found
    split at found
    · dsimp only at found
      split_ifs at found
      · split at found
        · split_ifs at found
          injection found with equal
          simp only [List.length_cons]
          omega
        · cases found
      · injection found with equal
        simp only [List.length_cons]
        omega
    · cases found

theorem utf16_reads (order : ByteOrder) :
    (utf16 order).Reads (encodeUtf16 order) CodePoint.ofChar := by
  intro c rest
  have valid := Utf8.isValidChar_toNat c
  have limit := toNat_lt_limit c
  unfold Nat.isValidChar at valid
  change readUtf16 order (encodeUtf16 order c ++ rest) = _
  rw [← CodePoint.ofNat_toNat]
  unfold encodeUtf16
  split
  next small =>
    obtain ⟨first, second, bytes, unit⟩ := halfwordBytes_eq order c.toNat small
    rw [bytes]
    simp only [List.cons_append, List.nil_append, readUtf16, unit]
    rw [if_neg (by omega), if_neg (by omega)]
    rfl
  next large =>
    obtain ⟨first, second, bytes, unit⟩ := halfwordBytes_eq order
      (0xD800 + (c.toNat - 0x10000) / 0x400) (by omega)
    obtain ⟨third, fourth, more, next⟩ := halfwordBytes_eq order
      (0xDC00 + (c.toNat - 0x10000) % 0x400) (by omega)
    rw [bytes, more]
    simp only [List.cons_append, List.nil_append, readUtf16, unit, next]
    rw [if_pos (by omega), if_pos (by omega)]
    have whole : 0x10000 + (0xD800 + (c.toNat - 0x10000) / 0x400 - 0xD800) * 0x400 +
        (0xDC00 + (c.toNat - 0x10000) % 0x400 - 0xDC00) = c.toNat := by
      omega
    rw [whole]
    rfl

/-! UTF-32: the value of one word. -/

def word (order : ByteOrder) (first second third fourth : UInt8) : Nat :=
  match order with
  | .little => halfword .little first second + 0x10000 * halfword .little third fourth
  | .big => 0x10000 * halfword .big first second + halfword .big third fourth

def encodeUtf32 (order : ByteOrder) (c : Char) : List UInt8 :=
  match order with
  | .little =>
      halfwordBytes .little (c.toNat % 0x10000) ++
        halfwordBytes .little (c.toNat / 0x10000)
  | .big =>
      halfwordBytes .big (c.toNat / 0x10000) ++
        halfwordBytes .big (c.toNat % 0x10000)

def readUtf32 (order : ByteOrder) : List UInt8 → Reading CodePoint
  | first :: second :: third :: fourth :: _ =>
      let value := word order first second third fourth
      if value.isValidChar then .symbol (.ofNat value) 4 else .malformed 4
  | _ => .truncated

def utf32 (order : ByteOrder) : Decoder CodePoint UInt8 where
  read := readUtf32 order
  read_symbol {input value width} found := by
    unfold readUtf32 at found
    split at found
    · dsimp only at found
      split_ifs at found
      injection found with _ equal
      simp only [List.length_cons]
      omega
    · cases found
  read_malformed {input width} found := by
    unfold readUtf32 at found
    split at found
    · dsimp only at found
      split_ifs at found
      injection found with equal
      simp only [List.length_cons]
      omega
    · cases found

theorem utf32_reads (order : ByteOrder) :
    (utf32 order).Reads (encodeUtf32 order) CodePoint.ofChar := by
  intro c rest
  have valid := Utf8.isValidChar_toNat c
  have limit := toNat_lt_limit c
  obtain ⟨a, b, low, lowValue⟩ := halfwordBytes_eq order
    (c.toNat % 0x10000) (by omega)
  obtain ⟨d, e, high, highValue⟩ := halfwordBytes_eq order
    (c.toNat / 0x10000) (by omega)
  change readUtf32 order (encodeUtf32 order c ++ rest) = _
  rw [← CodePoint.ofNat_toNat]
  cases order with
  | little =>
      have value : word .little a b d e = c.toNat := by
        rw [word, lowValue, highValue]
        omega
      rw [encodeUtf32, low, high]
      simp only [List.cons_append, List.nil_append, readUtf32, value]
      rw [if_pos valid]
      rfl
  | big =>
      have value : word .big d e a b = c.toNat := by
        rw [word, lowValue, highValue]
        omega
      rw [encodeUtf32, low, high]
      simp only [List.cons_append, List.nil_append, readUtf32, value]
      rw [if_pos valid]
      rfl

def utf8Decoder : Decoder CodePoint UInt8 := utf8.toDecoder CodePoint.ofChar

theorem utf8Decoder_reads :
    utf8Decoder.Reads String.utf8EncodeChar CodePoint.ofChar :=
  utf8.toDecoder_reads CodePoint.ofChar

end Cuprum.Codec
