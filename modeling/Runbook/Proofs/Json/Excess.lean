import Runbook.Json.Reader
import Runbook.Proofs.Text.Search
import Runbook.Proofs.Value.Fault

/-! JSON is refused, and not passed over as malformed, for a numeral of too many digits in it. -/
namespace Runbook

variable {n : Nat} {r : Text}

/-- The numeral of so many ones. -/
def ones (n : Nat) : Text := Text.repeated n '1'

theorem eq_of_mem_ones {c : Char} (h : c ∈ ones n) : c = '1' := List.eq_of_mem_replicate h

theorem length_ones (n : Nat) : (ones n).length = n := List.length_replicate

theorem exists_ones_succ (h : Numeral.digitLimit < n) : ∃ k, n = k + 1 ∧ ones n = '1' :: ones k := by
  cases n with
  | zero => cases h
  | succ k => exact ⟨k, rfl, rfl⟩

theorem span_ones {f : Char → Bool} (hone : f '1' = true) (n : Nat) (hr : ∀ c ∈ r.head?, f c = false) :
    (ones n ++ r).span f = (ones n, r) := by
  have hall : ∀ c ∈ ones n, f c = true := fun c hc => eq_of_mem_ones hc ▸ hone
  rw [List.span_eq_takeWhile_dropWhile, Text.takeWhile_run hall hr, Text.dropWhile_run hall hr]

theorem excess?_ones (h : Numeral.digitLimit < n) : Numeral.excess? (ones n) = some n := by
  have hstrip : (ones n).strip = ones n :=
    Text.strip_of_not_blank fun c hc => by rw [eq_of_mem_ones hc]; decide
  have hsigned : Numeral.signed (ones n) = (false, ones n) := by
    obtain ⟨k, rfl, hk⟩ := exists_ones_succ h
    rw [hk]
    rfl
  have hrun := span_ones (f := fun c => Text.isDigit c || c = '_') (by decide) n (r := []) (by simp)
  rw [List.append_nil] at hrun
  have hfilter : (ones n).filter (· ≠ '_') = ones n :=
    List.filter_eq_self.mpr fun c hc => by rw [eq_of_mem_ones hc]; decide
  rw [Numeral.excess?, hstrip, hsigned, Numeral.run, hrun, hfilter, length_ones]
  exact if_pos h

namespace Json

theorem numberAt_ones (h : Numeral.digitLimit < n) (r : Text) :
    numberAt false (ones n ++ '\x7d' :: r) = .error (.tooLong (some n)) := by
  have hrun := span_ones (f := Char.isDigit) (by decide) n (r := '\x7d' :: r) (by simp)
  have hexcess := excess?_ones h
  obtain ⟨k, rfl, hk⟩ := exists_ones_succ h
  rw [hk] at hexcess
  rw [hk, List.cons_append] at hrun ⊢
  rw [numberAt, hrun]
  · simp [fractionPart, exponentPart, hexcess]
  · rintro t ht
    cases ht

/-- A map with such a numeral for its only value. -/
def onesMap (n : Nat) : Text := ['\x7b', '"', 'a', '"', ':'] ++ (ones n ++ ['\x7d'])

theorem mem_onesMap {c : Char} (h : c ∈ onesMap n) : c ∈ ['\x7b', '"', 'a', ':', '1', '\x7d'] := by
  rw [onesMap, List.mem_append, List.mem_append] at h
  rcases h with h | h | h
  · exact (show ['\x7b', '"', 'a', '"', ':'] ⊆ ['\x7b', '"', 'a', ':', '1', '\x7d'] by decide) h
  · rw [eq_of_mem_ones h]
    decide
  · rw [List.mem_singleton.mp h]
    decide

/-- What refuses the first value of a map refuses the map. -/
theorem value_map_error {f : ReadFault} {fuel depth : Nat} {t : Text} (h : value (fuel + 1) depth ('1' :: t) = .error f) :
    value (fuel + 3) (depth + 1) ('\x7b' :: '"' :: 'a' :: '"' :: ':' :: '1' :: t) = .error f := by
  obtain ⟨k, hk⟩ : ∃ k, value (fuel + 3) (depth + 1) ('\x7b' :: '"' :: 'a' :: '"' :: ':' :: '1' :: t) =
      members (fuel + 2) depth [] ('"' :: 'a' :: '"' :: ':' :: '1' :: t) >>= k := ⟨_, rfl⟩
  obtain ⟨k', hk'⟩ : ∃ k', members (fuel + 2) depth [] ('"' :: 'a' :: '"' :: ':' :: '1' :: t) =
      value (fuel + 1) depth ('1' :: t) >>= k' := ⟨_, rfl⟩
  rw [hk, hk', h]
  rfl

theorem read_onesMap (h : Numeral.digitLimit < n) : read (onesMap n) = .error (.tooLong (some n)) := by
  have hnumber := numberAt_ones h []
  obtain ⟨k, rfl, hk⟩ := exists_ones_succ h
  rw [hk, List.cons_append] at hnumber
  have hmap : onesMap (k + 1) = '\x7b' :: '"' :: 'a' :: '"' :: ':' :: '1' :: (ones k ++ ['\x7d']) := by
    rw [onesMap, hk]
    rfl
  have hfuel : 2 * (onesMap (k + 1)).length + 2 = (2 * k + 13) + 3 := by
    rw [hmap]
    simp [length_ones]
    omega
  have hvalue : value (2 * k + 13 + 1) 984 ('1' :: (ones k ++ ['\x7d'])) = .error (.tooLong (some (k + 1))) := by
    rw [← hnumber]
    rfl
  have hread : value (2 * k + 13 + 3) depthLimit (skip (onesMap (k + 1))) = .error (.tooLong (some (k + 1))) := by
    rw [hmap]
    exact value_map_error hvalue
  rw [read, hfuel, hread]
  rfl

end Json
end Runbook
