import Runbook.Proofs.Text.Search
import Runbook.Proofs.Text.Substitution

/-! Runs of a class of characters: where they end, and the text in which each of them has been replaced as a whole. -/
namespace Runbook.Text

variable {p keep : Char → Bool} {f : Text → Text} {t u w r : Text} {c : Char}

/-! A run at the end of a text -/

theorem within_runOf (p : Char → Bool) : Within (runOf p) := by
  intro b t a n h
  obtain ⟨-, rfl⟩ := Prod.mk.inj (Option.some.inj h)
  exact (List.takeWhile_sublist p).length_le

/-- A run ends before the last character of a text that is not of the class. -/
theorem stable_runOf (h : ∀ c ∈ u.getLast?, p c = false) : Stable (runOf p) u := by
  rintro b x r s rfl hr
  have hlast : p (r.getLast hr) = false := by
    apply h
    rw [List.getLast?_append, List.getLast?_eq_some_getLast hr]
    rfl
  have hstop : (r ++ s).takeWhile p = r.takeWhile p := by
    rw [List.takeWhile_append, if_neg]
    intro hlen
    have hall : r.takeWhile p = r := (List.takeWhile_prefix p).eq_of_length hlen
    have hin := List.takeWhile_eq_self_iff.mp hall _ (List.getLast_mem hr)
    rw [hlast] at hin
    cases hin
  rw [runOf, runOf, hstop]

theorem piecesFrom_runOf (hw : ∀ c ∈ w, p c = true) (hne : w ≠ []) (b : Option Char) :
    piecesFrom (runOf p) b 0 w = [.hit w w] := by
  cases w with
  | nil => exact (hne rfl).elim
  | cons c w =>
    have hrun : runOf p b (c :: w) = some (c :: w, w.length + 1) := by
      rw [runOf, List.takeWhile_eq_self_iff.mpr hw]
      rfl
    have hrest (d : Option Char) (t : Text) : piecesFrom (runOf p) d t.length t = [] := by
      induction t generalizing d with
      | nil => rfl
      | cons e t ih => exact ih (some e)
    rw [piecesFrom, hrun]
    dsimp only
    rw [hrest, ← List.length_cons (a := c), List.take_length]

theorem hits_append_run (hu : ∀ c ∈ u.getLast?, p c = false) (hw : ∀ c ∈ w, p c = true) (hne : w ≠ []) :
    hits (runOf p) (u ++ w) = hits (runOf p) u ++ [⟨w, u.length, w.length, 1 + u.count '\n'⟩] := by
  rw [hits_append (within_runOf p) (stable_runOf hu), piecesFrom_runOf hw hne]
  rfl

/-! All runs replaced -/

/-- Each run of the class is replaced, as far as it goes, and what stands between two runs is kept. -/
inductive Collapses (p : Char → Bool) (f : Text → Text) : Text → Text → Prop
  | nil : Collapses p f [] []
  | kept {c : Char} {t u : Text} (hc : p c = false) (rest : Collapses p f t u) : Collapses p f (c :: t) (c :: u)
  | run {w t u : Text} (hw : ∀ c ∈ w, p c = true) (hne : w ≠ []) (ht : ∀ c ∈ t.head?, p c = false)
    (rest : Collapses p f t u) : Collapses p f (w ++ t) (f w ++ u)

theorem substitute_runOf_cons (hc : p c = false) (t : Text) :
    substitute (runOf p) f (c :: t) = c :: substitute (runOf p) f t := by
  have hrun : runOf p none (c :: t) = some ([], 0) := by simp [runOf, hc]
  have hafter : ∀ r, runOf p (some c) r = runOf p none r := fun _ => rfl
  rw [substitute_eq, pieces, piecesFrom, hrun]
  dsimp only
  rw [piecesFrom_congr hafter, List.flatMap_cons]
  rfl

theorem substitute_runOf_append (hw : ∀ c ∈ w, p c = true) (hne : w ≠ []) (hr : ∀ c ∈ r.head?, p c = false) :
    substitute (runOf p) f (w ++ r) = f w ++ substitute (runOf p) f r := by
  have hrun : runOf p none (w ++ r) = some (w, w.length) := by rw [runOf, takeWhile_run hw hr]
  exact substitute_hit hrun hne fun _ => rfl

theorem collapses_substitute (p : Char → Bool) (f : Text → Text) (t : Text) :
    Collapses p f t (substitute (runOf p) f t) := by
  induction hn : t.length using Nat.strongRecOn generalizing t with
  | ind n ih =>
    obtain ⟨w, r, rfl, hw, hr⟩ := exists_run p t
    rw [List.length_append] at hn
    by_cases hne : w = []
    · subst hne
      cases r with
      | nil => exact .nil
      | cons c r =>
        have hc : p c = false := hr c rfl
        rw [List.nil_append, substitute_runOf_cons hc]
        rw [List.length_cons] at hn
        exact .kept hc (ih r.length (by omega) r rfl)
    · have hpos := List.length_pos_iff.mpr hne
      rw [substitute_runOf_append hw hne hr]
      exact .run hw hne hr (ih r.length (by omega) r rfl)

/-- A character is from outside of the class, or was put in place of a run. -/
theorem Collapses.mem (h : Collapses p f t u) (hc : c ∈ u) : p c = false ∨ ∃ w, c ∈ f w := by
  induction h with
  | nil => cases hc
  | kept hd _ ih =>
    rcases List.mem_cons.mp hc with rfl | hc
    · exact .inl hd
    · exact ih hc
  | @run w _ _ _ _ _ _ ih =>
    rcases List.mem_append.mp hc with hc | hc
    · exact .inr ⟨w, hc⟩
    · exact ih hc

/-- What is neither of the class nor put in its place stays, in order. -/
theorem Collapses.filter_eq (h : Collapses p f t u) (hkeep : ∀ c, keep c = true → p c = false)
    (hf : ∀ w, (f w).filter keep = []) : u.filter keep = t.filter keep := by
  induction h with
  | nil => rfl
  | kept _ _ ih => rw [List.filter_cons, List.filter_cons, ih]
  | @run w _ _ hw _ _ _ ih =>
    have hrun : w.filter keep = [] := by
      refine List.filter_eq_nil_iff.mpr fun c hc hkept => ?_
      have hclass := hw c hc
      rw [hkeep c hkept] at hclass
      cases hclass
    rw [List.filter_append, List.filter_append, hf, hrun, ih]

end Runbook.Text
