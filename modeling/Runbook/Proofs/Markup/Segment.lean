import Runbook.Proofs.Markup.Block
import Runbook.Proofs.Markup.Stream

/-!
Which tokens each block is made of, and that the blocks of a text take all of its tokens but blank ones. A run of tokens
is described for any tokens at all; that no line is left over needs whole blocks.
-/
namespace Runbook

/-- The text of a node that holds one itself. -/
def NodeKind.value? : NodeKind → Option Text
  | .code _ _ value | .html value | .text value => some value
  | _ => none

/-- The values of the leaves of a node, read depth first. -/
def Node.leafValues (n : Node) : List Text := n.subtree.filterMap (·.kind.value?)

/-- The numbers of the first and the last line of a node. -/
def Node.span? (n : Node) : Option (Int × Int) := n.position.map fun p => (p.start.line, p.stop.line)

namespace Markup

open Text (joinLines)

variable {t : Text} {k : Token} {ks taken body : List Token} {n : Node} {o : Bool}

/-- The tokens of a block, what kind of node they make, and its leaf values. -/
inductive Makes : List Token → NodeKind → List Text → Prop
  | heading {k : Token} (hk : k.kind = .heading) : Makes [k] (.heading k.depth) [k.text]
  | code {k : Token} {body close : List Token} {lang info : Option Text} (hk : k.kind = .fenceOpen)
      (hb : ∀ x ∈ body, x.kind = .codeLine) (hc : IsClosing .fenceClose close) :
      Makes (k :: (body ++ close)) (.code lang info (joinLines (body.map (·.text))))
        [joinLines (body.map (·.text))]
  | comment {k : Token} (hk : k.kind = .comment) : Makes [k] (.html k.text.strip) [k.text.strip]
  | openComment {k : Token} {body close : List Token} (hk : k.kind = .commentOpen)
      (hb : ∀ x ∈ body, x.kind = .commentLine) (hc : IsClosing .commentClose close) :
      Makes (k :: (body ++ close)) (.html (joinLines ((k :: (body ++ close)).map (·.text))).strip)
        [(joinLines ((k :: (body ++ close)).map (·.text))).strip]
  | paragraph {k : Token} {ks : List Token} (h : ∀ x ∈ k :: ks, x.kind = .paragraph) :
      Makes (k :: ks) .paragraph [joinLines ((k :: ks).map (·.text))]
  | list {o : Bool} {k : Token} {ks : List Token} {start : Option Int} {spread : Bool} (hk : isItem o k = true)
      (h : IsItemTail o ks) : Makes (k :: ks) (.list o start spread) (((k :: ks).filter (isItem o)).map (·.text))

/-! One block -/

theorem lastLine_mem (k : Token) (ks : List Token) : ∃ j ∈ k :: ks, lastLine k.line ks = j.line := by
  induction ks generalizing k with
  | nil => exact ⟨k, List.mem_cons_self, rfl⟩
  | cons j ks ih =>
    obtain ⟨x, hx, he⟩ := ih j
    exact ⟨x, List.mem_cons_of_mem k hx, by rw [lastLine_cons, he]⟩

theorem lines_stop {first last column : Int} (h : last ≠ 0) :
    (Position.lines first (some last) column).stop.line = last := by
  unfold Position.lines
  split
  · cases ‹_ = none›
  · rename_i hz
    exact (h (Option.some.inj hz)).elim
  · rename_i hl
    exact (Option.some.inj hl).symm

/-- The number of no line is zero; a position takes zero for no number at all. -/
theorem span?_lines {kind : NodeKind} {data : Fields Value} {children : List Node} {column : Int}
    (hk : ∀ x ∈ k :: taken, x.line ≠ 0) :
    (Node.mk kind (some (.lines k.line (some (lastLine k.line taken)) column)) data children).span? =
      some (k.line, lastLine k.line taken) := by
  obtain ⟨j, hj, he⟩ := lastLine_mem k taken
  rw [Node.span?, Node.position, Option.map_some, lines_stop (he ▸ hk j hj)]
  rfl

theorem leafValues_list {kind : NodeKind} {position : Option Position} {data : Fields Value} (hv : kind.value? = none)
    (ks : List Token) : (Node.mk kind position data (ks.map itemNode)).leafValues = ks.map (·.text) := by
  have hbelow : (Node.subtrees (ks.map itemNode)).filterMap (·.kind.value?) = ks.map (·.text) := by
    induction ks with
    | nil => rfl
    | cons k ks ih =>
      rw [List.map_cons, Node.subtrees, List.filterMap_append, ih, List.map_cons]
      rfl
  rw [Node.leafValues, Node.subtree, ← hbelow]
  exact List.filterMap_cons_none hv

/-- A block is made of its first token and of those that its run takes. -/
theorem makes_blockAt (hk : ∀ x ∈ k :: ks, x.line ≠ 0) (h : blockAt k ks = some n) :
    ∃ taken, ks = taken ++ restAfter k ks ∧ Makes (k :: taken) n.kind n.leafValues ∧
      n.span? = some (k.line, lastLine k.line taken) := by
  have hseg : ∀ taken rest, ks = taken ++ rest → ∀ x ∈ k :: taken, x.line ≠ 0 := by
    rintro taken rest rfl x hx
    rw [← List.cons_append] at hk
    exact hk x (List.mem_append_left _ hx)
  unfold blockAt at h
  cases hkind : k.kind <;> rw [hkind] at h <;> cases h <;> simp only [restAfter, hkind]
  case heading => exact ⟨[], rfl, .heading hkind, rfl⟩
  case comment =>
    refine ⟨[], rfl, .comment hkind, ?_⟩
    exact span?_lines (hseg [] ks rfl)
  case fenceOpen =>
    obtain ⟨body, close, hks, hb, hc, hl, hlast⟩ := codeRun_taken k.line ks
    refine ⟨body ++ close, hks, ?_, ?_⟩
    · rw [codeNode, hl]
      exact .code hkind hb hc
    · rw [codeNode, hlast]
      exact span?_lines (hseg _ _ hks)
  case commentOpen =>
    obtain ⟨body, close, hks, hb, hc, hl, hlast⟩ := commentRun_taken k.line ks
    refine ⟨body ++ close, hks, ?_, ?_⟩
    · rw [commentNode, hl]
      exact .openComment hkind hb hc
    · rw [commentNode, hlast]
      exact span?_lines (hseg _ _ hks)
  case paragraph =>
    obtain ⟨taken, hks, ht, hl, hlast⟩ := paragraphRun_taken k.line ks
    refine ⟨taken, hks, ?_, ?_⟩
    · rw [paragraphNode, hl]
      exact .paragraph (List.forall_mem_cons.mpr ⟨hkind, ht⟩)
    · rw [paragraphNode, hlast]
      exact span?_lines (hseg _ _ hks)
  case listItem =>
    obtain ⟨taken, hks, ht, hi, hlast, -⟩ := listRun_taken k.ordered k.line ks
    have hitem : isItem k.ordered k = true := by simp [isItem, hkind]
    refine ⟨taken, hks, ?_, ?_⟩
    · rw [listNode, hi, leafValues_list rfl, ← List.filter_cons_of_pos hitem]
      exact .list hitem ht
    · rw [listNode, hlast]
      exact span?_lines (hseg _ _ hks)

/-! All blocks -/

/-- Tokens cut into those of the blocks, in order, and blank ones between them. -/
inductive Cut : List Token → List Node → Prop
  | nil : Cut [] []
  | blank {k : Token} {ks : List Token} {ns : List Node} (hk : k.kind = .blank) (h : Cut ks ns) : Cut (k :: ks) ns
  | block {k : Token} {taken ks : List Token} {n : Node} {ns : List Node}
      (hm : Makes (k :: taken) n.kind n.leafValues) (hs : n.span? = some (k.line, lastLine k.line taken))
      (h : Cut ks ns) : Cut (k :: (taken ++ ks)) (n :: ns)

theorem IsStream.tail (h : IsStream (k :: ks)) (hk : k.kind.isOutside = true) : IsStream ks := by
  cases h with
  | line _ h => exact h
  | block hd ho | unclosed hd ho =>
    rw [ho] at hk
    cases hd <;> cases hk

theorem IsStream.drop (h : IsStream (taken ++ ks)) (ht : ∀ x ∈ taken, x.kind.isOutside = true) : IsStream ks := by
  induction taken with
  | nil => exact h
  | cons k taken ih =>
    obtain ⟨hk, htaken⟩ := List.forall_mem_cons.mp ht
    exact ih (IsStream.tail h hk) htaken

theorem codeRun_append (hb : ∀ x ∈ body, x.kind = .codeLine) (l : Int) (ks : List Token) :
    ∃ l', (codeRun l (body ++ ks)).rest = (codeRun l' ks).rest := by
  induction body generalizing l with
  | nil => exact ⟨l, rfl⟩
  | cons k body ih =>
    obtain ⟨hk, hbody⟩ := List.forall_mem_cons.mp hb
    obtain ⟨l', he⟩ := ih hbody k.line
    refine ⟨l', ?_⟩
    rw [List.cons_append, codeRun, hk]
    exact he

theorem commentRun_append (hb : ∀ x ∈ body, x.kind = .commentLine) (l : Int) (ks : List Token) :
    ∃ l', (commentRun l (body ++ ks)).rest = (commentRun l' ks).rest := by
  induction body generalizing l with
  | nil => exact ⟨l, rfl⟩
  | cons k body ih =>
    obtain ⟨hk, hbody⟩ := List.forall_mem_cons.mp hb
    obtain ⟨l', he⟩ := ih hbody k.line
    refine ⟨l', ?_⟩
    rw [List.cons_append, commentRun, hk]
    exact he

theorem IsTail.codeRun (h : IsTail .codeLine .fenceClose ks) (l : Int) : IsStream (codeRun l ks).rest := by
  cases h with
  | unclosed hb =>
    obtain ⟨l', he⟩ := codeRun_append hb l []
    rw [List.append_nil] at he
    rw [he]
    exact .nil
  | closed hb hj h =>
    obtain ⟨l', he⟩ := codeRun_append hb l (_ :: _)
    rw [he, Markup.codeRun, hj]
    exact h

theorem IsTail.commentRun (h : IsTail .commentLine .commentClose ks) (l : Int) :
    IsStream (commentRun l ks).rest := by
  cases h with
  | unclosed hb =>
    obtain ⟨l', he⟩ := commentRun_append hb l []
    rw [List.append_nil] at he
    rw [he]
    exact .nil
  | closed hb hj h =>
    obtain ⟨l', he⟩ := commentRun_append hb l (_ :: _)
    rw [he, Markup.commentRun, hj]
    exact h

/-- Whole blocks start with a line of its own, or with an opening line and its block. -/
theorem IsStream.cons_cases (h : IsStream (k :: ks)) : (k.kind.isOutside = true ∧ IsStream ks) ∨
    (k.kind = .fenceOpen ∧ IsTail .codeLine .fenceClose ks) ∨
    (k.kind = .commentOpen ∧ IsTail .commentLine .commentClose ks) := by
  cases h with
  | line hk h => exact .inl ⟨hk, h⟩
  | block hd hk hb hj h =>
    cases hd with
    | code => exact .inr (.inl ⟨hk, .closed hb hj h⟩)
    | comment => exact .inr (.inr ⟨hk, .closed hb hj h⟩)
  | unclosed hd hk hb =>
    cases hd with
    | code => exact .inr (.inl ⟨hk, .unclosed hb⟩)
    | comment => exact .inr (.inr ⟨hk, .unclosed hb⟩)

/-- Reading a block leaves whole blocks. -/
theorem IsStream.restAfter (h : IsStream (k :: ks)) : IsStream (restAfter k ks) := by
  rcases h.cons_cases with ⟨hk, h⟩ | ⟨hk, ht⟩ | ⟨hk, ht⟩
  · unfold Markup.restAfter
    split
    case h_3 =>
      obtain ⟨taken, hks, ht, -⟩ := listRun_taken k.ordered k.line ks
      rw [hks] at h
      refine IsStream.drop h fun x hx => ?_
      rcases ht.kind_eq x hx with hx | hx <;> rw [hx] <;> rfl
    case h_4 =>
      obtain ⟨taken, hks, ht, -⟩ := paragraphRun_taken k.line ks
      rw [hks] at h
      refine IsStream.drop h fun x hx => ?_
      rw [ht x hx]
      rfl
    all_goals simp_all [TokenKind.isOutside]
  · rw [Markup.restAfter, hk]
    exact ht.codeRun k.line
  · rw [Markup.restAfter, hk]
    exact ht.commentRun k.line

theorem IsStream.blank_of_no_block (h : IsStream (k :: ks)) (hb : blockAt k ks = none) : k.kind = .blank := by
  rcases h.cons_cases with ⟨hk, -⟩ | ⟨hk, -⟩ | ⟨hk, -⟩
  · unfold blockAt at hb
    split at hb <;> simp_all [TokenKind.isOutside]
  · simp [blockAt, hk] at hb
  · simp [blockAt, hk] at hb

/-- The blocks of whole blocks leave no line out but blank ones. -/
theorem cut_blocks (h : IsStream ks) (hl : ∀ x ∈ ks, x.line ≠ 0) : Cut ks (blocks ks) := by
  induction hn : ks.length using Nat.strongRecOn generalizing ks with
  | ind m ih =>
    cases ks with
    | nil =>
      rw [blocks]
      exact .nil
    | cons k ks =>
      have hsuffix := restAfter_suffix k ks
      have hlt := hsuffix.length_le
      rw [List.length_cons] at hn
      have hrest : Cut (restAfter k ks) (blocks (restAfter k ks)) :=
        ih _ (by omega) h.restAfter (fun x hx => hl x (List.mem_cons_of_mem k (hsuffix.subset hx))) rfl
      rw [blocks_cons]
      cases hb : blockAt k ks with
      | none =>
        have hk := h.blank_of_no_block hb
        have hks : restAfter k ks = ks := by rw [restAfter, hk]
        rw [hks] at hrest ⊢
        exact .blank hk hrest
      | some n =>
        obtain ⟨taken, hks, hm, hs⟩ := makes_blockAt hl hb
        rw [show k :: ks = k :: (taken ++ restAfter k ks) by rw [← hks]]
        exact .block hm hs hrest

theorem cut_treeOf (t : Text) : Cut (tokenize t) (treeOf t).children := by
  refine cut_blocks (isStream_tokenize t) fun x hx => ?_
  have := (numbered_readLines .outside 1 t.lines).bounds hx
  omega

end Markup
end Runbook
