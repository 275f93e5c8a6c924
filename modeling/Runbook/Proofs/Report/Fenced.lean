import Runbook.Proofs.Text.Substitution
import Runbook.Proofs.Markup.FenceReaders
import Runbook.Report.Display

/-! A text in a fence is read as one block with that text for its content: no line of it can end the block. -/
namespace Runbook

open Text (isBlank dropFinal joinLines splitAt)
open Markup (OpenBlock IsMarker endsBlock fenceOpening? fencesFrom)

variable {t l x lang info marker first : Text} {body rest : List Text} {b : OpenBlock} {n : Nat}

namespace Text

/-- A run of a class lies inside one reading of runs. -/
theorem exists_piece_of_run {q : Char → Bool} (before : Option Char) (k : Nat) (hq : ∀ c ∈ x, q c = true) (hx : x ≠ [])
    (h : x <:+: t.drop k) : ∃ a s, .hit a s ∈ piecesFrom (runOf q) before k t ∧ x.length ≤ s.length := by
  fun_induction piecesFrom (runOf q) before k t with
  | case1 before k =>
    rw [List.drop_nil] at h
    exact (hx (List.eq_nil_of_infix_nil h)).elim
  | case2 before k c t ih => exact ih h
  | case3 before c t a n hm ih =>
    obtain ⟨run, rest, ht, hrun, hrest⟩ := exists_run q (c :: t)
    have hlen : run.length = n + 1 := by
      have hr := congrArg Prod.snd (Option.some.inj hm)
      dsimp only at hr
      rwa [ht, takeWhile_run hrun hrest] at hr
    have htake : (c :: t).take (n + 1) = run := by rw [ht, List.take_left' hlen]
    have hdrop : t.drop n = rest := by rw [← List.drop_succ_cons (a := c), ht, List.drop_left' hlen]
    have hinside : x <:+: run ∨ x <:+: rest := by
      rw [List.drop_zero, ht, List.infix_append_iff] at h
      rcases h with h | h | ⟨y, z, rfl, hy, hz⟩
      · exact .inl h
      · exact .inr h
      · cases z with
        | nil => exact .inl (by simpa using hy.isInfix)
        | cons d z =>
          obtain ⟨u, rfl⟩ := hz
          have hd := hq d (by simp)
          rw [hrest d rfl] at hd
          cases hd
    rcases hinside with hr | hr
    · exact ⟨a, _, List.mem_cons_self, htake ▸ hr.length_le⟩
    · obtain ⟨a', s, hs, hle⟩ := ih (hdrop ▸ hr)
      exact ⟨a', s, List.mem_cons_of_mem _ hs, hle⟩
  | case4 before c t hm ih =>
    have hc : q c = false := by
      cases hc : q c with
      | false => rfl
      | true =>
        refine (hm ((c :: t).takeWhile q) (t.takeWhile q).length ?_).elim
        simp [runOf, hc]
    rw [List.drop_zero, List.infix_cons_iff] at h
    rcases h with h | h
    · obtain ⟨d, x, rfl⟩ := List.exists_cons_of_ne_nil hx
      obtain ⟨rfl, -⟩ := List.cons_prefix_cons.mp h
      rw [hq d List.mem_cons_self] at hc
      cases hc
    · obtain ⟨a, s, hs, hle⟩ := ih h
      exact ⟨a, s, List.mem_cons_of_mem _ hs, hle⟩

end Text

/-! Blocks of raw lines -/

namespace Markup

/-- Lines that do not end a block are its content. -/
theorem fencesFrom_body (h : ∀ l ∈ body, endsBlock b.marker l = false) (n : Nat) (rest : List Text) :
    fencesFrom n (some b) (body ++ rest) =
      fencesFrom (n + body.length) (some { b with lines := body.reverse ++ b.lines }) rest := by
  induction body generalizing n b with
  | nil => rfl
  | cons l body ih =>
    obtain ⟨hl, hbody⟩ := List.forall_mem_cons.mp h
    have hpush := ih (b := { b with lines := l :: b.lines }) hbody (n + 1)
    rw [List.cons_append, fencesFrom, hl, if_neg (by simp), hpush, List.length_cons, List.reverse_cons,
      List.append_assoc, List.singleton_append, Nat.add_assoc, Nat.add_comm 1]

theorem fencesFrom_block (ho : fenceOpening? first = some (marker, info)) (hb : ∀ l ∈ body, endsBlock marker l = false)
    (hl : endsBlock marker l = true) (n : Nat) (rest : List Text) :
    fencesFrom n none (first :: (body ++ l :: rest)) =
      OpenBlock.finish ⟨marker, info, n, body.reverse⟩ true :: fencesFrom (n + body.length + 2) none rest := by
  have hne : (body ++ l :: rest).isEmpty = false := by simp
  have hbody := fencesFrom_body (b := ⟨marker, info, n, []⟩) hb (n + 1) (l :: rest)
  rw [fencesFrom, ho]
  dsimp only at hbody ⊢
  rw [hne, if_neg (by simp), hbody, fencesFrom, hl, if_pos rfl, List.append_nil]
  congr 2
  omega

theorem finish_of_no_return (h : ∀ r ∈ b.lines, '\r' ∉ r) :
    b.finish true = ⟨b.info, joinLines b.lines.reverse, b.line⟩ := by
  have hdrop : ∀ r ∈ b.lines, dropFinal '\r' r = r := by
    intro r hr
    refine Text.dropFinal_of_ne fun d hd => ?_
    rintro rfl
    exact h r hr (List.mem_of_mem_getLast? hd)
  have hcontent := content_finish (b := b) fun r hr => (hdrop r hr).symm ▸ h r hr
  rw [List.map_congr_left fun r hr => hdrop r (List.mem_reverse.mp hr), List.map_id'] at hcontent
  rw [← hcontent]
  rfl

end Markup

namespace Display

theorem length_le_longestRun (hx : ∀ c ∈ x, isBacktick c = true) (h : x <:+: t) : x.length ≤ longestRun t := by
  by_cases hne : x = []
  · rw [hne]
    exact Nat.zero_le _
  · obtain ⟨a, s, hs, hle⟩ := Text.exists_piece_of_run none 0 hx hne h
    obtain ⟨hit, hmem, -, hlen⟩ := Text.exists_mem_hitsFrom hs 0 1
    have hlong := List.le_max?_getD_of_mem (k := 0) (List.mem_map_of_mem (f := fun h => h.length) hmem)
    rw [longestRun, List.foldl_max, Nat.zero_max]
    rw [hlen] at hlong
    exact Nat.le_trans hle hlong

/-- The fence around a text. -/
def fence (t : Text) : Text := Text.repeated (max 3 (longestRun (lineBody t) + 1)) '\x60'

theorem isMarker_fence (t : Text) : IsMarker (fence t) := by
  refine ⟨?_, '\x60', .inl rfl, fun c hc => List.eq_of_mem_replicate hc⟩
  rw [fence, Text.repeated, List.length_replicate]
  exact Nat.le_max_left _ _

/-- The fence is longer than all that a line of the text could end it with. -/
theorem endsBlock_line (h : l ∈ splitAt '\n' (lineBody t)) : endsBlock (fence t) l = false := by
  rw [Bool.eq_false_iff]
  intro hends
  obtain ⟨indent, run, rest, rfl, -, hrun, -⟩ := (Markup.endsBlock_iff (isMarker_fence t)).mp hends
  obtain ⟨p, q, hbody, -⟩ := Text.mem_splitAt_iff.mp h
  have hinside : run <:+: lineBody t := ⟨p ++ indent, rest ++ q, by simp [hbody]⟩
  have hback : ∀ c ∈ run, isBacktick c = true :=
    fun c hc => decide_eq_true (List.eq_of_mem_replicate (hrun.2 c hc))
  have hshort := length_le_longestRun hback hinside
  have hlong := hrun.1
  rw [fence, Text.repeated, List.length_replicate] at hlong
  omega

theorem endsBlock_fence (t : Text) : endsBlock (fence t) (fence t) = true := by
  refine (Markup.endsBlock_iff (isMarker_fence t)).mpr ⟨[], fence t, [], by simp, ⟨by simp, by simp⟩, ?_, by simp⟩
  exact ⟨Nat.le_refl _, fun c hc => hc⟩

theorem fenceOpening?_fence (h : ∀ c ∈ lang, isBlank c = false ∧ c ≠ '\x60') (t : Text) :
    fenceOpening? (fence t ++ lang) = some (fence t, lang) := by
  have hnext : ∀ c ∈ lang.head?, c ∉ fence t :=
    fun c hc hm => (h c (List.mem_of_mem_head? hc)).2 (List.eq_of_mem_replicate hm)
  have hallow : Markup.allowsInfo (fence t) lang = true := by
    have hno : '\x60' ∉ lang := fun hc => (h _ hc).2 rfl
    simp [Markup.allowsInfo, hno]
  refine Markup.fenceOpening?_eq_some_iff.mpr ⟨[], lang, rfl, ⟨by simp, by simp⟩, isMarker_fence t, hnext, ?_, hallow⟩
  exact (Text.strip_of_not_blank fun c hc => (h c hc).1).symm

theorem fenced_eq (lang t : Text) : fenced lang t = (fence t ++ lang) ++ '\n' :: (lineBody t ++ '\n' :: fence t) := by
  have hfenced : fenced lang t = fence t ++ lang ++ ['\n'] ++ lineBody t ++ ['\n'] ++ fence t := rfl
  simp [hfenced]

theorem splitAt_fenced (h : '\n' ∉ lang) (t : Text) : splitAt '\n' (fenced lang t) =
    (fence t ++ lang) :: (splitAt '\n' (lineBody t) ++ [fence t]) := by
  have hno : '\n' ∉ fence t := fun hm => absurd (List.eq_of_mem_replicate hm) (by decide)
  rw [fenced_eq, Text.splitAt_append (by simp [hno, h]), Text.splitAt_append_cons, Text.splitAt_of_not_mem hno]

/-- A block is read where a text stands in a fence, and reading goes on after it. -/
theorem fencesFrom_fenced (hlang : ∀ c ∈ lang, isBlank c = false ∧ c ≠ '\x60') (ht : '\r' ∉ t) (n : Nat)
    (rest : List Text) : fencesFrom n none (splitAt '\n' (fenced lang t) ++ rest) =
      ⟨lang, lineBody t, n⟩ :: fencesFrom (n + (splitAt '\n' (lineBody t)).length + 2) none rest := by
  have hfeed : '\n' ∉ lang := fun h => absurd (hlang _ h).1 (by decide)
  have hbody : '\r' ∉ lineBody t := fun h => ht ((Text.dropEndWhile_isPrefix _ t).subset h)
  have hlines : ∀ r ∈ splitAt '\n' (lineBody t), '\r' ∉ r := by
    intro r hr hc
    obtain ⟨p, q, he, -⟩ := Text.mem_splitAt_iff.mp hr
    rw [he] at hbody
    exact hbody (by simp [hc])
  rw [splitAt_fenced hfeed, List.cons_append, List.append_assoc, List.singleton_append,
    Markup.fencesFrom_block (fenceOpening?_fence hlang t) (fun l hl => endsBlock_line hl) (endsBlock_fence t),
    Markup.finish_of_no_return fun r hr => hlines r (List.mem_reverse.mp hr), List.reverse_reverse,
    Text.joinLines_splitAt]

end Display
end Runbook
