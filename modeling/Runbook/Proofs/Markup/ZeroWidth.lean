import Runbook.Proofs.Text.Substitution
import Runbook.Markup.ZeroWidth

/-! A text has hidden runs exactly when characters without width stand in it beyond a byte-order mark at its start. -/
namespace Runbook

open ZeroWidth (isZeroWidth frame)
open Text (hitsFrom piecesFrom runOf Hit)

variable {t r : Text} {c : Char} {hs : List (Hit Text)}

namespace HiddenRun

/-- The text without the byte-order mark that may stand at its start. -/
def inside (t : Text) : Text := if t.head? = some frame then t.drop 1 else t

/-- A hidden run for a hit, unless the hit is a byte-order mark at the start. -/
def ofHit? (h : Hit Text) : Option HiddenRun :=
  if h.offset = 0 ∧ h.value = [frame] then none
  else some ⟨h.offset, h.length, ZeroWidth.decode h.value⟩

theorem all_eq (t : Text) : all t = (Text.hits (runOf isZeroWidth) t).filterMap ofHit? := rfl

theorem filterMap_ofHit?_eq_nil_iff (h : ∀ x ∈ hs, 0 < x.offset) : hs.filterMap ofHit? = [] ↔ hs = [] := by
  constructor
  · intro hn
    cases hs with
    | nil => rfl
    | cons x hs =>
      have hx := h x List.mem_cons_self
      have hne : ofHit? x = none := (List.filterMap_eq_nil_iff.mp hn) x List.mem_cons_self
      rw [ofHit?, if_neg (by omega)] at hne
      cases hne
  · rintro rfl
    rfl

theorem all_eq_nil_iff : all t = [] ↔ ∀ c ∈ inside t, isZeroWidth c = false := by
  cases t with
  | nil => simp [all, inside, Text.hits, Text.pieces, piecesFrom, hitsFrom]
  | cons c r =>
    rw [all_eq, Text.hits, Text.pieces, piecesFrom]
    cases hc : isZeroWidth c with
    | false =>
      have hrun : runOf isZeroWidth none (c :: r) = some ([], 0) := by simp [runOf, hc]
      have hne : c ≠ frame := by
        rintro rfl
        cases hc
      rw [hrun]
      dsimp only
      rw [hitsFrom, filterMap_ofHit?_eq_nil_iff, Text.hitsFrom_eq_nil_iff, Text.silent_runOf_iff, inside,
        if_neg (by simpa using hne), List.forall_mem_cons]
      · exact (and_iff_right hc).symm
      · intro x hx
        exact Text.le_offset_of_mem_hitsFrom hx
    | true =>
      have hrun : runOf isZeroWidth none (c :: r) =
          some (c :: r.takeWhile isZeroWidth, (r.takeWhile isZeroWidth).length + 1) := by simp [runOf, hc]
      rw [hrun]
      dsimp only
      rw [hitsFrom]
      by_cases hmark : c = frame ∧ r.takeWhile isZeroWidth = []
      · obtain ⟨rfl, hr⟩ := hmark
        rw [hr, List.filterMap_cons_none (by rw [ofHit?, if_pos ⟨rfl, rfl⟩]), List.length_nil,
          filterMap_ofHit?_eq_nil_iff, Text.hitsFrom_eq_nil_iff, Text.silent_runOf_iff]
        · rfl
        · intro x hx
          exact Text.le_offset_of_mem_hitsFrom hx
      · have hkept : ¬ ((0 : Nat) = 0 ∧ c :: r.takeWhile isZeroWidth = [frame]) := by
          rintro ⟨-, he⟩
          exact hmark (List.cons.inj he)
        rw [List.filterMap_cons_some (by rw [ofHit?, if_neg hkept])]
        refine iff_of_false (by simp) fun h => hmark ?_
        by_cases hf : c = frame
        · subst hf
          refine ⟨rfl, ?_⟩
          cases r with
          | nil => rfl
          | cons d r => simp [h d List.mem_cons_self]
        · rw [inside, if_neg (by simpa using hf)] at h
          rw [h c List.mem_cons_self] at hc
          cases hc

end HiddenRun
end Runbook
