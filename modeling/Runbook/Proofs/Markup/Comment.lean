import Runbook.Proofs.Text.Lines
import Runbook.Proofs.Markup.Mark

/-! A comment that a reader takes for a directive holds a directive comment of the raw text, whatever its line ends are. -/
namespace Runbook

open Text (unixLines)

variable {t s o body : Text} {space : Namespace} {l : Int} {c : Comment}

-- by the definition itself: its marks are literals, which a comparison would take apart
theorem Directive.rawOf_eq (body : Text) : rawOf body = "<!--" ++ body ++ "-->" := by
  delta rawOf
  rfl

/-- A comment is what stands between its marks in the text. -/
theorem Comment.rawOf_infix (h : c ∈ Comment.all t) : Directive.rawOf c.body <:+: t := by
  obtain ⟨hit, hh, rfl⟩ := List.mem_map.mp h
  obtain ⟨p, r, n, rfl, hr⟩ := Text.reads_of_mem_hits hh
  unfold Comment.atStart at hr
  split at hr
  · rename_i rest
    obtain ⟨body, hb, he⟩ := Option.map_eq_some_iff.mp hr
    obtain ⟨⟨q, rfl⟩, -⟩ := (Text.before?_eq_some_iff (by decide)).mp hb
    refine ⟨p, q, ?_⟩
    rw [show hit.value = body from (congrArg Prod.fst he).symm]
    simp [Directive.rawOf_eq]
  · cases hr

namespace Directive

/-- Only a comment that holds a directive comment can be read as a directive. -/
theorem ofComment_eq_none (h : ∀ s, IsComment s → ¬ s <:+: rawOf body) (l : Int) :
    ofComment body l = .ok none := by
  cases hn : namespace? (body.dropWhile Text.isBlank) with
  | none => rw [ofComment, hn]
  | some p =>
    obtain ⟨o, ho, x, hx⟩ := namespace?_dropWhile_iff.mp ⟨p.2, hn⟩
    obtain ⟨s, hs, hsx⟩ := IsComment.exists_at_start (r := x ++ "-->") ho ⟨x, [], by simp⟩
    refine (h s hs (hsx.trans ?_).isInfix).elim
    rw [rawOf_eq, ← hx, List.append_assoc]

theorem ofComments_eq_nil {cs : List Comment} (h : ∀ c ∈ cs, ofComment c.body c.line = .ok none) :
    ofComments cs = .ok [] := by
  induction cs with
  | nil => rfl
  | cons c cs ih =>
    rw [ofComments, h c List.mem_cons_self]
    exact ih fun d hd => h d (List.mem_cons_of_mem c hd)

theorem all_eq_nil (h : ∀ s, IsComment s → ¬ s <:+: t) : all t = .ok [] :=
  ofComments_eq_nil fun c hc =>
    ofComment_eq_none (fun s hs hsc => h s hs (hsc.trans (Comment.rawOf_infix hc))) c.line

/-- Line ends can stand only among the blanks of an opening. -/
theorem IsOpening.of_unixLines (h : IsOpening space (unixLines o)) : IsOpening space o := by
  generalize hu : unixLines o = u at h
  obtain ⟨hb⟩ := h
  rename_i blanks
  have hn : '\n' ∉ space.name := by cases space <;> decide
  obtain ⟨o, e, rfl, h₁, he⟩ := Text.exists_of_unixLines_eq_append hu
  obtain ⟨o, n, rfl, h₂, hn'⟩ := Text.exists_of_unixLines_eq_append h₁
  obtain ⟨m, bs, rfl, hm, hbs⟩ := Text.exists_of_unixLines_eq_append h₂
  obtain rfl := Text.eq_of_unixLines_eq he (by decide)
  obtain rfl := Text.eq_of_unixLines_eq hn' hn
  obtain rfl := Text.eq_of_unixLines_eq hm (by decide)
  refine .mk fun c hc => ?_
  by_cases hcr : c = '\r'
  · rw [hcr]
    rfl
  · exact hb c (hbs ▸ Text.mem_unixLines hcr hc)

/-- Putting line feeds for line ends makes no directive comment. -/
theorem IsComment.exists_of_unixLines (hs : IsComment s) (h : s <:+: unixLines t) :
    ∃ s', IsComment s' ∧ s' <:+: t := by
  obtain ⟨ho, -⟩ := hs
  rename_i opening body
  obtain ⟨p, q, h⟩ := h
  simp only [List.append_assoc] at h
  obtain ⟨p, t, rfl, -, h₁⟩ := Text.exists_of_unixLines_eq_append h.symm
  obtain ⟨o, t, rfl, rfl, h₂⟩ := Text.exists_of_unixLines_eq_append h₁
  obtain ⟨body, t, rfl, -, h₃⟩ := Text.exists_of_unixLines_eq_append h₂
  obtain ⟨e, q, rfl, he, -⟩ := Text.exists_of_unixLines_eq_append h₃
  obtain rfl := Text.eq_of_unixLines_eq he (by decide)
  obtain ⟨s', hs', hst⟩ := IsComment.exists_at_start (r := body ++ ("-->" ++ q)) ho.of_unixLines
    ⟨body, q, by simp⟩
  exact ⟨s', hs', hst.isInfix.trans (List.suffix_append p _).isInfix⟩

end Directive
end Runbook
