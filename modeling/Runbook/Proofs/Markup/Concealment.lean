import Mathlib.Data.List.DropRight
import Runbook.Proofs.Markup.HiddenOctets
import Runbook.Proofs.Markup.ZeroWidth
import Runbook.Proofs.Text.Runs

/-!
Octets hidden at the end of a text. They are found as its last run, to which the characters without width belong that the text
ended in before, and no run before that one changes.
-/
namespace Runbook.HiddenRun

open ZeroWidth (isZeroWidth frame encode decode conceal)

variable {t u w : Text} {bs : List UInt8}

theorem all_append_run (hu : ∀ c ∈ u.getLast?, isZeroWidth c = false) (hw : ∀ c ∈ w, isZeroWidth c = true)
    (hlen : 2 ≤ w.length) : all (u ++ w) = all u ++ [⟨u.length, w.length, decode w⟩] := by
  have hne : w ≠ [] := by
    rintro rfl
    simp at hlen
  have hkept : ¬ (u.length = 0 ∧ w = [frame]) := by
    rintro ⟨-, rfl⟩
    simp at hlen
  rw [all_eq, Text.hits_append_run hu hw hne, List.filterMap_append, ← all_eq, List.filterMap_cons_some, List.filterMap_nil]
  exact if_neg hkept

theorem isZeroWidth_encode (bs : List UInt8) : ∀ c ∈ encode bs, isZeroWidth c = true := by
  intro c hc
  rw [encode, List.cons_append, List.mem_cons, List.mem_append, List.mem_singleton] at hc
  rcases hc with rfl | hc | rfl
  · rfl
  · rcases ZeroWidth.mem_body hc with rfl | rfl | rfl <;> rfl
  · rfl

theorem two_le_length_encode (bs : List UInt8) : 2 ≤ (encode bs).length := by
  rw [encode, List.cons_append, List.length_cons, List.length_append, List.length_singleton]
  omega

/-- Hidden octets make one more run after those of the text up to its last visible character, and that run takes in what
stood after this character; the visible text stays as it is. So octets hidden behind a visible character are the last ones that
are revealed. -/
theorem all_conceal (t : Text) (bs : List UInt8) :
    all (conceal t bs) = all (t.rdropWhile isZeroWidth) ++
      [⟨(t.rdropWhile isZeroWidth).length, (t.rtakeWhile isZeroWidth).length + (encode bs).length,
        decode (t.rtakeWhile isZeroWidth ++ encode bs)⟩] ∧
    ZeroWidth.strip (conceal t bs) = ZeroWidth.strip t ∧
    ((∀ c ∈ t.getLast?, isZeroWidth c = false) → bs ≠ [] → reveal (conceal t bs) = reveal t ++ [bs]) := by
  have hlen := two_le_length_encode bs
  refine ⟨?_, ?_, fun ht hbs => ?_⟩
  · have hrun : ∀ c ∈ t.rtakeWhile isZeroWidth ++ encode bs, isZeroWidth c = true := by
      intro c hc
      rcases List.mem_append.mp hc with hc | hc
      · exact List.mem_takeWhile_imp (List.mem_reverse.mp hc)
      · exact isZeroWidth_encode bs c hc
    have hcut : conceal t bs = t.rdropWhile isZeroWidth ++ (t.rtakeWhile isZeroWidth ++ encode bs) := by
      rw [← List.append_assoc, List.rdropWhile_append_rtakeWhile, conceal]
    have hseen : ∀ c ∈ (t.rdropWhile isZeroWidth).getLast?, isZeroWidth c = false :=
      Text.last_dropEndWhile isZeroWidth t
    rw [hcut, all_append_run hseen hrun, List.length_append]
    rw [List.length_append]
    omega
  · have hnone : (encode bs).filter (!isZeroWidth ·) = [] := by
      rw [List.filter_eq_nil_iff]
      intro c hc
      simp [isZeroWidth_encode bs c hc]
    rw [ZeroWidth.strip, conceal, List.filter_append, hnone, List.append_nil, ZeroWidth.strip]
  · have hdata : decode (encode bs) = some bs := ZeroWidth.decode_eq_some_iff.mpr (ZeroWidth.holds_encode hbs)
    rw [reveal, conceal, all_append_run ht (isZeroWidth_encode bs) hlen, List.filterMap_append, hdata]
    rfl

/-- A byte-order mark at the start, and a run that holds nothing before the last character. -/
def carrier : Text := "\ufeffa\u200bb"

theorem all_conceal_carrier :
    (∀ c ∈ carrier.getLast?, isZeroWidth c = false) ∧ ([0x68, 0x69] : List UInt8) ≠ [] ∧
      all carrier = [⟨2, 1, none⟩] ∧ reveal (conceal carrier [0x68, 0x69]) = [[0x68, 0x69]] := by
  have hlast : ∀ c ∈ carrier.getLast?, isZeroWidth c = false := by
    intro c hc
    obtain rfl : 'b' = c := Option.some.inj hc
    rfl
  refine ⟨hlast, by decide, by decide +kernel, ?_⟩
  rw [(all_conceal carrier [0x68, 0x69]).2.2 hlast (by decide)]
  decide +kernel

end Runbook.HiddenRun
