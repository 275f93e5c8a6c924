import Mathlib.Data.List.Basic
import Runbook.Text.Utf8

/-! The octets of a text are those of the standard encoding, so no two texts have the same. -/
namespace Runbook.Text

theorem utf8Char_eq (c : Char) : utf8Char c = String.utf8EncodeChar c := by
  have hvalid := c.valid
  simp only [UInt32.isValidChar, Nat.isValidChar] at hvalid
  have hc : c.toNat = c.val.toNat := rfl
  rw [utf8Char, String.utf8EncodeChar]
  rw [hc]
  generalize c.val.toNat = n at hvalid
  dsimp only
  by_cases hone : n < 0x80
  · rw [if_pos hone, if_pos (show n ≤ 127 by omega)]
  rw [if_neg hone, if_neg (show ¬ n ≤ 127 by omega)]
  by_cases htwo : n < 0x800
  · rw [if_pos htwo, if_pos (show n ≤ 2047 by omega), Nat.mod_eq_of_lt (show n / 64 < 32 by omega)]
    simp only [Nat.add_comm]
  rw [if_neg htwo, if_neg (show ¬ n ≤ 2047 by omega)]
  by_cases hthree : n < 0x10000
  · rw [if_pos hthree, if_pos (show n ≤ 65535 by omega), Nat.mod_eq_of_lt (show n / 4096 < 16 by omega)]
    simp only [Nat.add_comm]
  · rw [if_neg hthree, if_neg (show ¬ n ≤ 65535 by omega), Nat.mod_eq_of_lt (show n / 262144 < 8 by omega)]
    simp only [Nat.add_comm]

/-- No two texts have the same octets. -/
theorem utf8_injective : Function.Injective utf8 := by
  intro t u h
  have hencode : ∀ t : Text, t.utf8Encode = (utf8 t).toByteArray := by
    intro t
    rw [List.utf8Encode, utf8]
    congr 2
    exact funext fun c => (utf8Char_eq c).symm
  have hdecode : some t.toArray = some u.toArray := by
    rw [← List.utf8Decode?_utf8Encode, ← List.utf8Decode?_utf8Encode, hencode, hencode, h]
  exact List.toArray_inj (Option.some.inj hdecode)

end Runbook.Text
