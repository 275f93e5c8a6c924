import Runbook.Proofs.Text.Lines
import Runbook.Proofs.Text.Search
import Runbook.Markup.Fence

/-! A fenced block of raw lines: its opening line, the lines up to a closing one or to the end, and nothing else. -/
namespace Runbook.Markup

open Text (joinLines splitAt unixLines)

variable {n : Nat} {b : OpenBlock} {ls : List Text} {f : Fence} {t p x : Text}

/-- The lines that an open block takes, and whether a closing line comes next. -/
def Takes (marker : Text) (body rest : List Text) (closed : Bool) : Prop :=
  (∀ l ∈ body, endsBlock marker l = false) ∧
    if closed then ∃ e post, rest = e :: post ∧ endsBlock marker e = true else rest = []

/-- A block that starts with the first of some raw lines, which has number `n`. -/
inductive IsBlock (n : Nat) : List Text → Fence → Prop
  | mk {l marker info : Text} {body rest : List Text} {closed : Bool}
      (ho : fenceOpening? l = some (marker, info)) (hne : body ++ rest ≠ [])
      (ht : Takes marker body rest closed) :
      IsBlock n (l :: (body ++ rest)) (OpenBlock.finish ⟨marker, info, n, body.reverse⟩ closed)

/-- A block somewhere in raw lines of which the first has number `n`. -/
def HasBlock (n : Nat) (ls : List Text) (f : Fence) : Prop :=
  ∃ pre rest, ls = pre ++ rest ∧ IsBlock (n + pre.length) rest f

theorem HasBlock.cons (h : HasBlock (n + 1) ls f) (l : Text) : HasBlock n (l :: ls) f := by
  obtain ⟨pre, rest, rfl, hb⟩ := h
  refine ⟨l :: pre, rest, rfl, ?_⟩
  rwa [List.length_cons, Nat.add_comm pre.length, ← Nat.add_assoc]

/-- A block that is found was open before, or it opens later. -/
theorem mem_fencesFrom {current : Option OpenBlock} (h : f ∈ fencesFrom n current ls) :
    (∃ b body rest closed, current = some b ∧ ls = body ++ rest ∧ Takes b.marker body rest closed ∧
      f = OpenBlock.finish { b with lines := body.reverse ++ b.lines } closed) ∨ HasBlock n ls f := by
  induction ls generalizing n current with
  | nil =>
    cases current with
    | none => cases h
    | some b =>
      obtain rfl := List.mem_singleton.mp h
      exact .inl ⟨b, [], [], false, rfl, rfl, ⟨by simp, rfl⟩, rfl⟩
  | cons l ls ih =>
    cases current with
    | some b =>
      rw [fencesFrom] at h
      cases he : endsBlock b.marker l with
      | true =>
        rw [he, if_pos rfl] at h
        rcases List.mem_cons.mp h with rfl | hmem
        · exact .inl ⟨b, [], l :: ls, true, rfl, rfl, ⟨by simp, l, ls, rfl, he⟩, rfl⟩
        · rcases ih hmem with ⟨_, _, _, _, hnone, _⟩ | hlater
          · cases hnone
          · exact .inr (hlater.cons l)
      | false =>
        rw [he, if_neg (by simp)] at h
        rcases ih h with ⟨_, body, rest, closed, hb, rfl, ⟨hbody, hend⟩, rfl⟩ | hlater
        · cases hb
          refine .inl ⟨b, l :: body, rest, closed, rfl, rfl, ⟨?_, hend⟩, by simp⟩
          rintro x hx
          rcases List.mem_cons.mp hx with rfl | hx
          · exact he
          · exact hbody x hx
        · exact .inr (hlater.cons l)
    | none =>
      rw [fencesFrom] at h
      split at h
      · rename_i marker info ho
        cases hls : ls with
        | nil =>
          subst hls
          cases h
        | cons x xs =>
          rw [← hls]
          have hne : ls.isEmpty = false := by rw [hls]; rfl
          rw [hne, if_neg (by simp)] at h
          rcases ih h with ⟨_, body, rest, closed, hb, rfl, ht, rfl⟩ | hlater
          · cases hb
            refine .inr ⟨[], l :: (body ++ rest), rfl, ?_⟩
            rw [List.append_nil]
            exact .mk ho (by rw [hls]; simp) ht
          · exact .inr (hlater.cons l)
      · rcases ih h with ⟨_, _, _, _, hnone, _⟩ | hlater
        · cases hnone
        · exact .inr (hlater.cons l)

theorem mem_fences (h : f ∈ fences t) : HasBlock 1 (splitAt '\n' t) f := by
  rcases mem_fencesFrom h with ⟨_, _, _, _, hnone, _⟩ | hblock
  · cases hnone
  · exact hblock

/-- Each block has an opening line in the text, which gives it its info. -/
theorem exists_opening (h : f ∈ fences t) :
    ∃ l ∈ splitAt '\n' t, ∃ marker, fenceOpening? l = some (marker, f.info) := by
  obtain ⟨pre, _, hls, hb⟩ := mem_fences h
  obtain ⟨ho, hne, ht⟩ := hb
  rename_i l marker info body rest closed
  exact ⟨l, hls ▸ by simp, marker, ho⟩

theorem dropFinal_isPrefix (c : Char) (t : Text) : t.dropFinal c <+: t := by
  unfold Text.dropFinal
  split
  · exact List.dropLast_prefix t
  · exact List.prefix_refl t

theorem blockContent_isPrefix (t : Text) : blockContent t <+: unixLines t :=
  (dropFinal_isPrefix '\r' _).trans (dropFinal_isPrefix '\n' _)

/-- What stands on one line of a block stands in the text too. -/
theorem infix_of_content (h : f ∈ fences t) (hp : p <:+: f.content) (hn : '\n' ∉ p) : p <:+: t := by
  obtain ⟨pre, _, hls, hb⟩ := mem_fences h
  obtain ⟨-, -, -⟩ := hb
  rename_i l marker info body rest closed
  have hbody : body <:+: splitAt '\n' t := ⟨pre ++ [l], rest, by rw [hls]; simp⟩
  have hjoined : joinLines body <:+: t := by
    rw [← Text.joinLines_splitAt t]
    exact Text.join_infix hbody
  have hlines := Text.infix_of_unixLines (hp.trans (blockContent_isPrefix _).isInfix) hn
  rw [List.reverse_reverse] at hlines
  split at hlines
  · exact (Text.infix_of_infix_concat hlines hn).trans hjoined
  · exact hlines.trans hjoined

end Runbook.Markup
