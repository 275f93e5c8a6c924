import Runbook.Proofs.Text.Lines

/-! Numbers are read back from their digits, so no two are written alike. -/
namespace Runbook.Text

variable {n m width base d : Nat} {c : Char} {s t : Text}

theorem hexValue?_digitChar (h : d < 16) : hexValue? (Nat.digitChar d) = some d := by
  have hall : ∀ d : Fin 16, hexValue? (Nat.digitChar d) = some d.val := by decide
  exact hall ⟨d, h⟩

theorem hex_one (h : n < 16) : hex 1 n = [Nat.digitChar n] := by
  rw [hex, Nat.toDigits_of_lt_base h]
  rfl

/-- The last digit stands apart. -/
theorem hex_succ (hwidth : 0 < width) (n : Nat) : hex (width + 1) n = hex width (n / 16) ++ [Nat.digitChar (n % 16)] := by
  obtain ⟨w, rfl⟩ : ∃ w, width = w + 1 := ⟨width - 1, by omega⟩
  by_cases h : n < 16
  · rw [hex, hex, Nat.toDigits_of_lt_base h, Nat.div_eq_of_lt h, Nat.mod_eq_of_lt h, Nat.toDigits_of_lt_base (by decide)]
    simp [padLeft, repeated, List.replicate_succ', Nat.digitChar]
  · rw [hex, hex, Nat.toDigits_of_base_le (by decide) (by omega)]
    simp [padLeft, repeated]

/-- The number that digits of a base up to 16 stand for. -/
def valueOf (base : Nat) (t : Text) : Nat := t.foldl (fun n c => n * base + (hexValue? c).getD 0) 0

theorem valueOf_toDigits (hbase : 1 < base) (hsmall : base ≤ 16) (n : Nat) : valueOf base (Nat.toDigits base n) = n := by
  induction n using Nat.strongRecOn with
  | ind n ih =>
    by_cases hn : n < base
    · rw [Nat.toDigits_of_lt_base hn]
      simp [valueOf, hexValue?_digitChar (show n < 16 by omega)]
    · have hlt : n / base < n := Nat.div_lt_self (by omega) hbase
      have hdigit := hexValue?_digitChar (lt_of_lt_of_le (Nat.mod_lt n (by omega : base > 0)) hsmall)
      rw [Nat.toDigits_of_base_le hbase (Nat.not_lt.mp hn), valueOf, List.foldl_concat, hdigit]
      change valueOf base (Nat.toDigits base (n / base)) * base + n % base = n
      rw [ih _ hlt, Nat.div_add_mod']

theorem ofNat_injective : Function.Injective ofNat := by
  intro m n h
  rw [← valueOf_toDigits (by decide : 1 < 10) (by decide) m, ← valueOf_toDigits (by decide : 1 < 10) (by decide) n]
  exact congrArg (valueOf 10) h

/-- Zeros in front do not count. -/
theorem valueOf_padLeft (base width : Nat) (t : Text) : valueOf base (padLeft width '0' t) = valueOf base t := by
  have hzeros : ∀ k : Nat, (List.replicate k '0').foldl (fun n c => n * base + (hexValue? c).getD 0) 0 = 0 := by
    have hzero : (hexValue? '0').getD 0 = 0 := by decide
    intro k
    induction k with
    | zero => rfl
    | succ k ih => rw [List.replicate_succ, List.foldl_cons, hzero, Nat.zero_mul, Nat.add_zero, ih]
  rw [padLeft, repeated, valueOf, List.foldl_append, hzeros]
  rfl

theorem valueOf_hex (width n : Nat) : valueOf 16 (hex width n) = n := by
  rw [hex, valueOf_padLeft]
  exact valueOf_toDigits (by decide) le_rfl n

theorem padLeft_ofNat_injective (width : Nat) : Function.Injective fun n => padLeft width '0' (ofNat n) := by
  intro m n h
  have hvalue := congrArg (valueOf 10) h
  dsimp only at hvalue
  rw [valueOf_padLeft, valueOf_padLeft] at hvalue
  exact (valueOf_toDigits (by decide) (by decide) m).symm.trans
    (hvalue.trans (valueOf_toDigits (by decide) (by decide) n))

theorem hex_injective (width : Nat) : Function.Injective (hex width) := by
  intro m n h
  rw [← valueOf_hex width m, ← valueOf_hex width n, h]

theorem toNat_of_isAlphanum (h : c.isAlphanum = true) :
    (65 ≤ c.toNat ∧ c.toNat ≤ 90 ∨ 97 ≤ c.toNat ∧ c.toNat ≤ 122) ∨ 48 ≤ c.toNat ∧ c.toNat ≤ 57 := by
  delta Char.isAlphanum Char.isAlpha Char.isUpper Char.isLower Char.isDigit at h
  simp only [Bool.or_eq_true, Bool.and_eq_true, decide_eq_true_eq, ge_iff_le, UInt32.le_iff_toNat_le] at h
  exact h

/-- Digits are letters and figures. -/
theorem isAlphanum_of_mem_toDigits (hbase : 1 < base) (hsmall : base ≤ 16) (h : c ∈ Nat.toDigits base n) :
    c.isAlphanum = true := by
  have hall : ∀ d : Fin 16, (Nat.digitChar d).isAlphanum = true := by decide
  induction n using Nat.strongRecOn with
  | ind n ih =>
    by_cases hn : n < base
    · rw [Nat.toDigits_of_lt_base hn, List.mem_singleton] at h
      rw [h]
      exact hall ⟨n, by omega⟩
    · rw [Nat.toDigits_of_base_le hbase (Nat.not_lt.mp hn), List.mem_append, List.mem_singleton] at h
      rcases h with h | rfl
      · exact ih _ (Nat.div_lt_self (by omega) hbase) h
      · exact hall ⟨n % base, lt_of_lt_of_le (Nat.mod_lt n (by omega)) hsmall⟩

theorem isAlphanum_of_mem_ofNat (h : c ∈ ofNat n) : c.isAlphanum = true :=
  isAlphanum_of_mem_toDigits (by decide) (by decide) h

theorem isAlphanum_of_mem_hex (h : c ∈ hex width n) : c.isAlphanum = true := by
  rw [hex, padLeft, List.mem_append] at h
  rcases h with h | h
  · rw [List.eq_of_mem_replicate h]
    rfl
  · exact isAlphanum_of_mem_toDigits (by decide) le_rfl h

theorem not_mem_of_isAlphanum (ht : ∀ d ∈ t, d.isAlphanum = true) (hc : c.isAlphanum = false) : c ∉ t := by
  intro hmem
  rw [ht c hmem] at hc
  cases hc

/-- No mark stands among digits. -/
theorem not_mem_ofNat (hc : c.isAlphanum = false) (n : Nat) : c ∉ ofNat n :=
  not_mem_of_isAlphanum (fun _ => isAlphanum_of_mem_ofNat) hc

theorem not_mem_hex (hc : c.isAlphanum = false) (width n : Nat) : c ∉ hex width n :=
  not_mem_of_isAlphanum (fun _ => isAlphanum_of_mem_hex) hc

theorem last_inj {f g r s : Text} (hr : c ∉ r) (hs : c ∉ s) (h : f ++ c :: r = g ++ c :: s) : f = g ∧ r = s := by
  have hrev := congrArg List.reverse h
  simp only [List.reverse_append, List.reverse_cons, List.append_assoc, List.singleton_append] at hrev
  obtain ⟨hrs, hfg⟩ := first_inj (by simpa using hr) (by simpa using hs) hrev
  exact ⟨List.reverse_injective hfg, List.reverse_injective hrs⟩

end Runbook.Text
