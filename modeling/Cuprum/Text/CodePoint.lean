import Mathlib.Data.List.Infix

namespace Cuprum.Text

/-- A character of a decoded string, which may be a lone surrogate. -/
abbrev CodePoint := Fin 0x110000

abbrev Str := List CodePoint

def CodePoint.ofNat (value : Nat) : CodePoint := Fin.ofNat 0x110000 value

theorem toNat_lt_limit (c : Char) : c.toNat < 0x110000 := by
  have valid := c.valid
  change c.toNat.isValidChar at valid
  unfold Nat.isValidChar at valid
  omega

def CodePoint.ofChar (c : Char) : CodePoint := ⟨c.toNat, toNat_lt_limit c⟩

theorem CodePoint.ofNat_toNat (c : Char) : ofNat c.toNat = ofChar c :=
  Fin.ext (Nat.mod_eq_of_lt (toNat_lt_limit c))

end Cuprum.Text
