import Runbook.Proofs.Markup.Segment

/-!
The tree keeps every line of a text: the lines of its blocks follow each other without overlap, only blank lines stand
between them, and each block holds what its lines hold.
-/
namespace Runbook

/-- Whether a line is one of the lines of a node. -/
def Node.spans (n : Node) (l : Int) : Bool := n.span?.any fun (a, b) => a ≤ l && l ≤ b

namespace Markup

variable {t : Text} {k j x : Token} {ks ps taken : List Token} {n : Node} {ns : List Node} {o : Bool} {a : Int}

/-- Tokens in a row that make a block, the first of them and the others. -/
structure IsSegment (ks : List Token) (n : Node) (k : Token) (taken : List Token) : Prop where
  within : k :: taken <:+: ks
  makes : Makes (k :: taken) n.kind n.leafValues
  span : n.span? = some (k.line, lastLine k.line taken)

theorem IsSegment.append_left (h : IsSegment ks n k taken) (ps : List Token) : IsSegment (ps ++ ks) n k taken :=
  ⟨h.within.trans (List.suffix_append ps ks).isInfix, h.makes, h.span⟩

theorem Cut.exists_segment (h : Cut ks ns) (hn : n ∈ ns) : ∃ k taken, IsSegment ks n k taken := by
  induction h with
  | nil => cases hn
  | @blank k _ _ _ _ ih =>
    obtain ⟨j, taken, hs⟩ := ih hn
    exact ⟨j, taken, hs.append_left [k]⟩
  | @block k taken ks _ _ hm hs _ ih =>
    rcases List.mem_cons.mp hn with rfl | hn
    · exact ⟨k, taken, (List.prefix_append (k :: taken) ks).isInfix, hm, hs⟩
    · obtain ⟨j, later, hs⟩ := ih hn
      exact ⟨j, later, hs.append_left (k :: taken)⟩

theorem Cut.blank_or (h : Cut ks ns) (hx : x ∈ ks) :
    x.kind = .blank ∨ ∃ n ∈ ns, ∃ k taken, IsSegment ks n k taken ∧ x ∈ k :: taken := by
  induction h with
  | nil => cases hx
  | @blank k _ _ hk _ ih =>
    rcases List.mem_cons.mp hx with rfl | hx
    · exact .inl hk
    · refine (ih hx).imp_right ?_
      rintro ⟨n, hn, j, taken, hs, hxs⟩
      exact ⟨n, hn, j, taken, hs.append_left [k], hxs⟩
  | @block k taken ks n ns hm hs _ ih =>
    rw [← List.cons_append, List.mem_append] at hx
    rcases hx with hx | hx
    · exact .inr ⟨n, List.mem_cons_self, k, taken,
        ⟨(List.prefix_append (k :: taken) ks).isInfix, hm, hs⟩, hx⟩
    · refine (ih hx).imp_right ?_
      rintro ⟨m, hm, j, later, hs, hxs⟩
      exact ⟨m, List.mem_cons_of_mem n hm, j, later, hs.append_left (k :: taken), hxs⟩

/-! Numbers of the lines of a block -/

def Ascending (ks : List Token) : Prop := ks.Pairwise fun j k => j.line < k.line

theorem Numbered.ascending (h : Numbered a ks) : Ascending ks := by
  induction ks generalizing a with
  | nil => exact .nil
  | cons k ks ih =>
    obtain ⟨hk, hks⟩ := h
    refine .cons (fun j hj => ?_) (ih hks)
    have := hks.bounds hj
    omega

theorem Ascending.bounds (h : Ascending (k :: ks)) (hx : x ∈ k :: ks) :
    k.line ≤ x.line ∧ x.line ≤ lastLine k.line ks := by
  induction ks generalizing k x with
  | nil =>
    rw [List.mem_singleton.mp hx, lastLine_nil]
    exact ⟨Int.le_refl _, Int.le_refl _⟩
  | cons j ks ih =>
    obtain ⟨hk, hks⟩ := List.pairwise_cons.mp h
    have hkj : k.line < j.line := hk j List.mem_cons_self
    have hj : j.line ≤ lastLine j.line ks := (ih hks List.mem_cons_self).2
    rw [lastLine_cons]
    rcases List.mem_cons.mp hx with rfl | hx
    · omega
    · have := ih hks hx
      omega

theorem spans_iff (hs : n.span? = some (k.line, lastLine k.line taken)) (l : Int) :
    n.spans l = true ↔ k.line ≤ l ∧ l ≤ lastLine k.line taken := by
  rw [Node.spans, hs]
  simp

/-- The tokens on the lines of a block are those that it is made of. -/
theorem IsSegment.filter_spans (h : IsSegment ks n k taken) (hks : Ascending ks) :
    ks.filter (fun x => n.spans x.line) = k :: taken := by
  obtain ⟨pre, post, he⟩ := h.within
  rw [← he, Ascending, List.pairwise_append, List.pairwise_append] at hks
  obtain ⟨⟨-, hseg, hpre⟩, -, hpost⟩ := hks
  have hlast : ∃ y ∈ k :: taken, lastLine k.line taken = y.line := lastLine_mem k taken
  obtain ⟨y, hy, hyline⟩ := hlast
  have hbefore : pre.filter (fun x => n.spans x.line) = [] := by
    refine List.filter_eq_nil_iff.mpr fun x hx hxs => ?_
    have := hpre x hx k List.mem_cons_self
    have := (spans_iff h.span x.line).mp hxs
    omega
  have hafter : post.filter (fun x => n.spans x.line) = [] := by
    refine List.filter_eq_nil_iff.mpr fun x hx hxs => ?_
    have := hpost y (List.mem_append_right _ hy) x hx
    have := (spans_iff h.span x.line).mp hxs
    omega
  have hin : (k :: taken).filter (fun x => n.spans x.line) = k :: taken :=
    List.filter_eq_self.mpr fun x hx => (spans_iff h.span x.line).mpr (Ascending.bounds hseg hx)
  rw [← he, List.filter_append, List.filter_append, hbefore, hafter, hin, List.nil_append, List.append_nil]

theorem IsSegment.mem_iff (h : IsSegment ks n k taken) (hks : Ascending ks) :
    x ∈ k :: taken ↔ x ∈ ks ∧ n.spans x.line = true := by
  rw [← h.filter_spans hks, List.mem_filter]

theorem IsSegment.bounds (h : IsSegment ks n k taken) (hks : Numbered a ks) :
    a ≤ k.line ∧ k.line ≤ lastLine k.line taken ∧ lastLine k.line taken < a + ks.length := by
  obtain ⟨y, hy, hyline⟩ := lastLine_mem k taken
  have hfirst := hks.bounds (h.within.subset List.mem_cons_self)
  have hlast := hks.bounds (h.within.subset hy)
  have hle := Ascending.bounds (hks.ascending.sublist h.within.sublist) hy
  omega

/-- Each block ends before the next one starts. -/
theorem Cut.pairwise (h : Cut ks ns) (hks : Ascending ks) :
    ns.Pairwise fun m n => ∀ a ∈ m.span?, ∀ b ∈ n.span?, a.2 < b.1 := by
  induction h with
  | nil => exact .nil
  | blank _ _ ih => exact ih (List.pairwise_cons.mp hks).2
  | @block k taken ks n ns hm hs hcut ih =>
    rw [← List.cons_append, Ascending, List.pairwise_append] at hks
    obtain ⟨-, hlater, hlt⟩ := hks
    refine .cons (fun m hm a ha b hb => ?_) (ih hlater)
    obtain ⟨j, later, hseg⟩ := hcut.exists_segment hm
    obtain ⟨y, hy, hyline⟩ := lastLine_mem k taken
    have hj : j ∈ ks := hseg.within.subset List.mem_cons_self
    rw [hs] at ha
    rw [hseg.span] at hb
    cases ha
    cases hb
    have := hlt y hy j hj
    dsimp only
    omega

/-! Blank lines inside a block -/

/-- A blank line among the items of a list has an item on either side. -/
theorem IsItemTail.between (h : IsItemTail o ks) (hk : isItem o k = true) (hx : x ∈ k :: ks)
    (hb : x.kind = .blank) : ∃ p q, isItem o p = true ∧ isItem o q = true ∧ [p, x, q] <:+: k :: ks := by
  induction h generalizing k with
  | nil =>
    obtain rfl := List.mem_singleton.mp hx
    exact (not_blank_of_isItem hk hb).elim
  | @item j ks hj _ ih =>
    rcases List.mem_cons.mp hx with rfl | hx
    · exact (not_blank_of_isItem hk hb).elim
    · obtain ⟨p, q, hp, hq, hin⟩ := ih hj hx
      exact ⟨p, q, hp, hq, List.infix_cons hin⟩
  | @blank i j ks _ hj _ ih =>
    rcases List.mem_cons.mp hx with rfl | hx
    · exact (not_blank_of_isItem hk hb).elim
    · rcases List.mem_cons.mp hx with rfl | hx
      · exact ⟨k, j, hk, hj, (List.prefix_append [k, x, j] ks).isInfix⟩
      · obtain ⟨p, q, hp, hq, hin⟩ := ih hj hx
        exact ⟨p, q, hp, hq, List.infix_cons (List.infix_cons hin)⟩

/-- Of all blocks only a list has a blank line in it. -/
theorem Makes.between {kind : NodeKind} {values : List Text} (h : Makes ks kind values) (hx : x ∈ ks)
    (hb : x.kind = .blank) : ∃ o start spread, kind = .list o start spread ∧
      ∃ p q, isItem o p = true ∧ isItem o q = true ∧ [p, x, q] <:+: ks := by
  have hne : ∀ {body close : List Token} {i c : TokenKind}, (∀ y ∈ body, y.kind = i) → IsClosing c close →
      i ≠ .blank → c ≠ .blank → x ∉ body ++ close := by
    intro body close i c hbody hclose hi hc hm
    rcases List.mem_append.mp hm with hm | hm
    · exact hi ((hbody x hm).symm.trans hb)
    · exact hc ((hclose.kind_eq hm).symm.trans hb)
  cases h with
  | heading hk | comment hk =>
    rw [List.mem_singleton.mp hx, hk] at hb
    cases hb
  | code hk hbody hc =>
    rcases List.mem_cons.mp hx with rfl | hx
    · cases hk.symm.trans hb
    · exact (hne hbody hc (by decide) (by decide) hx).elim
  | openComment hk hbody hc =>
    rcases List.mem_cons.mp hx with rfl | hx
    · cases hk.symm.trans hb
    · exact (hne hbody hc (by decide) (by decide) hx).elim
  | paragraph h => cases (h x hx).symm.trans hb
  | list hk h => exact ⟨_, _, _, rfl, h.between hk hx hb⟩

theorem Numbered.lines_of_infix {p q : Token} (h : Numbered a ks) (hin : [p, x, q] <:+: ks) :
    x.line = p.line + 1 ∧ q.line = x.line + 1 := by
  obtain ⟨pre, post, rfl⟩ := hin
  obtain ⟨hp, hx, hq, -⟩ := (numbered_append.mp (numbered_append.mp h).1).2
  omega

/-- A tree that keeps the lines of tokens. -/
structure KeepsLines (ks : List Token) (count : Nat) (ns : List Node) : Prop where
  /-- There is one token for each line. -/
  numbers : ks.map (·.line) = (List.range count).map fun i : Nat => 1 + (i : Int)
  spans : ∀ n ∈ ns, ∃ a b, n.span? = some (a, b) ∧ 1 ≤ a ∧ a ≤ b ∧ b ≤ count
  ascending : ns.Pairwise fun m n => ∀ a ∈ m.span?, ∀ b ∈ n.span?, a.2 < b.1
  outside : ∀ k ∈ ks, (∀ n ∈ ns, n.spans k.line = false) → k.kind = .blank
  blank : ∀ n ∈ ns, ∀ k ∈ ks, n.spans k.line = true → k.kind = .blank →
    ∃ o start spread, n.kind = .list o start spread ∧ ∃ p ∈ ks, ∃ q ∈ ks, isItem o p = true ∧ isItem o q = true ∧
      k.line = p.line + 1 ∧ q.line = k.line + 1 ∧ n.spans p.line = true ∧ n.spans q.line = true
  values : ∀ n ∈ ns, Makes (ks.filter fun k => n.spans k.line) n.kind n.leafValues

/-- No line is lost, taken twice or moved between a text and its tree. -/
theorem keepsLines_treeOf (t : Text) : KeepsLines (tokenize t) t.lines.length (treeOf t).children := by
  have hcut := cut_treeOf t
  have hnum : Numbered 1 (tokenize t) := numbered_readLines .outside 1 t.lines
  have hasc := hnum.ascending
  have hlen : (tokenize t).length = t.lines.length := length_readLines ..
  constructor
  case numbers => exact hlen ▸ hnum.map_line
  case spans =>
    intro n hn
    obtain ⟨k, taken, hseg⟩ := hcut.exists_segment hn
    obtain ⟨hfirst, hle, hlast⟩ := hseg.bounds hnum
    exact ⟨_, _, hseg.span, hfirst, hle, by omega⟩
  case ascending => exact hcut.pairwise hasc
  case outside =>
    intro k hk hout
    rcases hcut.blank_or hk with hb | ⟨n, hn, j, taken, hseg, hmem⟩
    · exact hb
    · have hspan := ((hseg.mem_iff hasc).mp hmem).2
      rw [hout n hn] at hspan
      cases hspan
  case blank =>
    intro n hn x hx hspan hb
    obtain ⟨k, taken, hseg⟩ := hcut.exists_segment hn
    have hxs : x ∈ k :: taken := (hseg.mem_iff hasc).mpr ⟨hx, hspan⟩
    obtain ⟨o, start, spread, hkind, p, q, hp, hq, hin⟩ := hseg.makes.between hxs hb
    obtain ⟨hxp, hqx⟩ := hnum.lines_of_infix (hin.trans hseg.within)
    obtain ⟨hpt, hps⟩ := (hseg.mem_iff hasc).mp (hin.subset (show p ∈ [p, x, q] by simp))
    obtain ⟨hqt, hqs⟩ := (hseg.mem_iff hasc).mp (hin.subset (show q ∈ [p, x, q] by simp))
    exact ⟨o, start, spread, hkind, p, hpt, q, hqt, hp, hq, hxp, hqx, hps, hqs⟩
  case values =>
    intro n hn
    obtain ⟨k, taken, hseg⟩ := hcut.exists_segment hn
    rw [hseg.filter_spans hasc]
    exact hseg.makes

end Markup
end Runbook
