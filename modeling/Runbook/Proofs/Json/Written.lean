import Mathlib.Tactic.SplitIfs
import Runbook.Json.Printer
import Runbook.Json.Reader
import Runbook.Proofs.Text.Digit

/-! A string that was written is read back as it was, whatever stands after it. -/
namespace Runbook

variable {c : Char} {t r acc : Text} {n width fuel : Nat} {asciiOnly : Bool}

namespace Json

theorem hex4?_hex (h : n < 0x10000) (r : Text) : hex4? (Text.hex 4 n ++ r) = some (n, r) := by
  have hdigits : Text.hex 4 n = [Nat.digitChar (n / 16 / 16 / 16), Nat.digitChar (n / 16 / 16 % 16),
      Nat.digitChar (n / 16 % 16), Nat.digitChar (n % 16)] := by
    rw [Text.hex_succ (by decide), Text.hex_succ (by decide), Text.hex_succ (by decide), Text.hex_one (by omega)]
    rfl
  have hvalue : ((n / 16 / 16 / 16 * 16 + n / 16 / 16 % 16) * 16 + n / 16 % 16) * 16 + n % 16 = n := by omega
  rw [hdigits]
  simp only [List.cons_append, List.nil_append, hex4?]
  rw [Text.hexValue?_digitChar (by omega), Text.hexValue?_digitChar (by omega), Text.hexValue?_digitChar (by omega),
    Text.hexValue?_digitChar (by omega)]
  simp [hvalue]

theorem escaped?_hex (h : c.toNat < 0x10000) (r : Text) : escaped? (Text.hex 4 c.toNat ++ r) = some (c, r) := by
  have hvalid : c.toNat < 0xD800 ∨ 0xDFFF < c.toNat := by
    have := c.valid
    simp only [UInt32.isValidChar, Nat.isValidChar] at this
    have hc : c.toNat = c.val.toNat := rfl
    omega
  rw [escaped?, hex4?_hex h]
  simp only [Option.bind_eq_bind, Option.bind_some, Char.ofNat_toNat]
  rw [if_neg (by omega), if_neg (by omega)]

theorem escaped?_units {high low : Nat} (hhigh : 0xD800 ≤ high ∧ high ≤ 0xDBFF) (hlow : 0xDC00 ≤ low ∧ low ≤ 0xDFFF)
    (r : Text) : escaped? (Text.hex 4 high ++ '\\' :: 'u' :: (Text.hex 4 low ++ r)) =
      some (Char.ofNat (0x10000 + (high - 0xD800) * 0x400 + (low - 0xDC00)), r) := by
  rw [escaped?, hex4?_hex (by omega)]
  simp only [Option.bind_eq_bind, Option.bind_some]
  rw [if_pos hhigh, hex4?_hex (by omega)]
  dsimp only
  rw [if_pos hlow]

/-- A character outside the first plane is read from its two units. -/
theorem escaped?_pair (h : 0x10000 ≤ c.toNat) (r : Text) :
    escaped? (Text.hex 4 (0xD800 + (c.toNat - 0x10000) / 0x400) ++
      '\\' :: 'u' :: (Text.hex 4 (0xDC00 + (c.toNat - 0x10000) % 0x400) ++ r)) = some (c, r) := by
  have hmost : c.toNat < 0x110000 := by
    have := c.valid
    simp only [UInt32.isValidChar, Nat.isValidChar] at this
    have hc : c.toNat = c.val.toNat := rfl
    omega
  have hboth : 0x10000 + (0xD800 + (c.toNat - 0x10000) / 0x400 - 0xD800) * 0x400 +
      (0xDC00 + (c.toNat - 0x10000) % 0x400 - 0xDC00) = c.toNat := by omega
  rw [escaped?_units (by omega) (by omega), hboth, Char.ofNat_toNat]

theorem stringBody_of_escaped? (h : escaped? t = some (c, r)) (acc : Text) (fuel : Nat) :
    stringBody (fuel + 1) acc ('\\' :: 'u' :: t) = stringBody fuel (c :: acc) r := by
  rw [stringBody, h]

theorem stringBody_unit (h : escaped? (Text.hex 4 n ++ t) = some (c, r)) (acc : Text) (fuel : Nat) :
    stringBody (fuel + 1) acc (unit n ++ t) = stringBody fuel (c :: acc) r := stringBody_of_escaped? h acc fuel

theorem unit_append (n : Nat) (t : Text) : unit n ++ t = '\\' :: 'u' :: (Text.hex 4 n ++ t) := rfl

/-- One character is read from what was written for it. -/
theorem stringBody_escape (asciiOnly : Bool) (c : Char) (acc r : Text) (fuel : Nat) :
    stringBody (fuel + 1) acc (escape asciiOnly c ++ r) = stringBody fuel (c :: acc) r := by
  unfold escape
  split_ifs with hquote hbackslash hline hreturn htab hback hfeed hcontrol hwide
  · subst hquote
    rfl
  · subst hbackslash
    rfl
  · subst hline
    rfl
  · subst hreturn
    rfl
  · subst htab
    rfl
  · subst hback
    rfl
  · subst hfeed
    rfl
  · exact stringBody_unit (escaped?_hex (by omega) r) acc fuel
  · by_cases hfirst : c.toNat < 0x10000
    · rw [units, if_pos hfirst]
      exact stringBody_unit (escaped?_hex hfirst r) acc fuel
    · rw [units, if_neg hfirst, List.append_assoc]
      refine stringBody_unit ?_ acc fuel
      rw [unit_append]
      exact escaped?_pair (by omega) r
  · rw [List.cons_append, List.nil_append, stringBody, if_neg hcontrol]
    · exact hquote
    · rintro t rfl
      exact (hbackslash rfl).elim
    · rintro d t rfl
      exact (hbackslash rfl).elim

theorem stringBody_flatMap (asciiOnly : Bool) (t r acc : Text) {fuel : Nat} (hfuel : t.length < fuel) :
    stringBody fuel acc (t.flatMap (escape asciiOnly) ++ '"' :: r) = some (acc.reverse ++ t, r) := by
  induction t generalizing acc fuel with
  | nil =>
    obtain ⟨k, rfl⟩ : ∃ k, fuel = k + 1 := ⟨fuel - 1, by omega⟩
    simp [stringBody]
  | cons c t ih =>
    obtain ⟨k, rfl⟩ : ∃ k, fuel = k + 1 := ⟨fuel - 1, by omega⟩
    rw [List.flatMap_cons, List.append_assoc, stringBody_escape, ih (c :: acc) (by simpa using hfuel)]
    simp

theorem escape_ne_nil (asciiOnly : Bool) (c : Char) : escape asciiOnly c ≠ [] := by
  intro h
  have hread := stringBody_escape asciiOnly c [] ['"'] 1
  rw [h] at hread
  simp [stringBody] at hread

/-- What is written for a character is not empty, so the length of a text bounds what was written into it. -/
theorem length_le_flatMap (asciiOnly : Bool) (t : Text) : t.length ≤ (t.flatMap (escape asciiOnly)).length := by
  induction t with
  | nil => exact Nat.le_refl _
  | cons c t ih =>
    have hc := List.length_pos_iff.mpr (escape_ne_nil asciiOnly c)
    simp only [List.flatMap_cons, List.length_append, List.length_cons]
    omega

/-- A string that was written is read back, with what stands after it. -/
theorem string?_string (asciiOnly : Bool) (t r : Text) :
    string? (t.flatMap (escape asciiOnly) ++ '"' :: r) = some (t, r) := by
  rw [string?, stringBody_flatMap]
  · rfl
  · have hle := length_le_flatMap asciiOnly t
    rw [List.length_append]
    omega

end Json
end Runbook
