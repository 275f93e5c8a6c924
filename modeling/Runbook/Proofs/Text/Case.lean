import Runbook.Text.Fold
import Runbook.Text.Lower

/-!
A word whose lower case is plain ASCII is the same word when case is folded. The converse fails: a long s folds to an s,
but it is a small letter already.
-/
namespace Runbook.Text

variable {b w p q r : Text} {c d : Char}

def IsAscii (c : Char) : Prop := 0 < c.toNat ∧ c.toNat < 128

/-- Of all runs beyond ASCII only the Kelvin sign has its small letter in it. -/
theorem capitalRuns_image : ∀ run ∈ capitalRuns.toList, 128 ≤ run.hi →
    128 ≤ run.lo + run.up - run.down ∨ (run.lo = 0x212A ∧ run.hi = 0x212A ∧ run.up = 0 ∧ run.down = 8383) := by
  decide +kernel

theorem foldChar_of_lt (h : c.toNat < 128) : foldChar c = c.toLower := by
  have hne : ∀ d : Char, 128 ≤ d.toNat → c ≠ d := by
    rintro d hd rfl
    omega
  rw [foldChar, if_neg (hne _ (by decide)), if_neg (hne _ (by decide)), if_neg]
  rintro (h | h)
  · exact hne _ (by decide) h
  · exact hne _ (by decide) h

/-- What is no code point stands for the code point zero. -/
theorem toNat_ofNat (n : Nat) : (Char.ofNat n).toNat = n ∨ (Char.ofNat n).toNat = 0 := by
  by_cases h : n.isValidChar
  · left
    rw [Char.ofNat, dif_pos h]
    rfl
  · right
    rw [Char.ofNat, dif_neg h]
    rfl

theorem foldChar_of_lowerChar (hd : IsAscii (lowerChar c)) : foldChar c = lowerChar c := by
  unfold lowerChar at hd ⊢
  split at hd
  · rename_i hc
    rw [if_pos hc]
    exact foldChar_of_lt hc
  · rename_i hc
    rw [if_neg hc]
    split at hd
    · rename_i run hrun
      have hm := Array.mem_toList_iff.mpr (Array.mem_of_find?_eq_some hrun)
      have hin := Array.find?_some hrun
      simp only [Bool.and_eq_true, decide_eq_true_eq] at hin
      obtain ⟨hpos, hlt⟩ := hd
      rcases capitalRuns_image run hm (by omega) with himage | ⟨hlo, hhi, hup, hdown⟩
      · rcases toNat_ofNat (c.toNat + run.up - run.down) with hn | hn <;> omega
      · have hk : c = '\u212a' := by
          apply Char.toNat_inj.mp
          have : ('\u212a' : Char).toNat = 0x212A := rfl
          omega
        subst hk
        rw [hup, hdown, show ('\u212a' : Char).toNat + 0 - 8383 = 'k'.toNat from rfl, Char.ofNat_toNat]
        rfl
    · have := hd.2
      omega

theorem lowerFrom_dotted (b w : Text) :
    lowerFrom b ('\u0130' :: w) = 'i' :: '\u0307' :: lowerFrom ('\u0130' :: b) w := by
  rw [lowerFrom]
  rfl

theorem lowerFrom_cons (hc : c ≠ '\u0130') (b w : Text) :
    ∃ x, lowerFrom b (c :: w) = x :: lowerFrom (c :: b) w ∧ (IsAscii x → foldChar c = x) := by
  by_cases hs : c = '\u03a3'
  · refine ⟨if meetsCased b && !meetsCased w then '\u03c2' else '\u03c3', ?_, fun hx => ?_⟩
    · rw [lowerFrom, if_neg hc, if_pos hs]
      rfl
    · have hlt := hx.2
      split at hlt <;> exact absurd hlt (by decide)
  · refine ⟨lowerChar c, ?_, fun hx => foldChar_of_lowerChar hx⟩
    rw [lowerFrom, if_neg hc, if_neg hs]
    rfl

/-- What has an ASCII lower case folds to it, character by character. A capital I with a dot has two small letters, so
a word that ends between them goes on. -/
theorem exists_of_lowerFrom (hp : ∀ c ∈ p, IsAscii c) (h : lowerFrom b w = p ++ q) :
    ∃ u r, w = u ++ r ∧ u.map foldChar = p ∧ (q = [] → r = []) := by
  induction p generalizing b w with
  | nil =>
    refine ⟨[], w, rfl, rfl, fun hq => ?_⟩
    subst hq
    cases w with
    | nil => rfl
    | cons c w =>
      by_cases hc : c = '\u0130'
      · rw [hc, lowerFrom_dotted] at h
        cases h
      · obtain ⟨x, hx, -⟩ := lowerFrom_cons hc b w
        rw [hx] at h
        cases h
  | cons d p ih =>
    obtain ⟨hd, hps⟩ := List.forall_mem_cons.mp hp
    cases w with
    | nil => cases h
    | cons c w =>
      by_cases hc : c = '\u0130'
      · subst hc
        rw [lowerFrom_dotted, List.cons_append] at h
        obtain ⟨rfl, htail⟩ := List.cons.inj h
        cases p with
        | nil =>
          refine ⟨['\u0130'], w, rfl, rfl, fun hq => ?_⟩
          subst hq
          cases htail
        | cons e p =>
          obtain ⟨rfl, -⟩ := List.cons.inj htail
          exact absurd (hps _ List.mem_cons_self).2 (by decide)
      · obtain ⟨x, hx, hfold⟩ := lowerFrom_cons hc b w
        rw [hx, List.cons_append] at h
        obtain ⟨rfl, htail⟩ := List.cons.inj h
        obtain ⟨u, r, rfl, rfl, hr⟩ := ih hps htail
        exact ⟨c :: u, r, rfl, by rw [List.map_cons, hfold hd], hr⟩

theorem map_foldChar_of_lower (hp : ∀ c ∈ p, IsAscii c) (h : lower w = p) : w.map foldChar = p := by
  obtain ⟨u, r, rfl, rfl, hr⟩ := exists_of_lowerFrom (q := []) hp (h.trans (List.append_nil p).symm)
  rw [hr rfl, List.append_nil]

theorem afterFolded?_eq_some_iff : afterFolded? p w = some r ↔ ∃ u, w = u ++ r ∧ u.map foldChar = p := by
  induction p generalizing w with
  | nil => simp [afterFolded?, eq_comm]
  | cons c p ih =>
    cases w with
    | nil => simp [afterFolded?]
    | cons d w =>
      rw [afterFolded?]
      constructor
      · intro h
        split at h
        · rename_i hcd
          obtain ⟨u, rfl, hu⟩ := ih.mp h
          exact ⟨d :: u, rfl, by rw [List.map_cons, hu, hcd]⟩
        · cases h
      · rintro ⟨u, hw, hu⟩
        cases u with
        | nil => cases hu
        | cons e u =>
          obtain ⟨rfl, rfl⟩ := List.cons.inj hw
          obtain ⟨rfl, htail⟩ := List.cons.inj hu
          rw [if_pos rfl]
          exact ih.mpr ⟨u, rfl, htail⟩

end Runbook.Text
