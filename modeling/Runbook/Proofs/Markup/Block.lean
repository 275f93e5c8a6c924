import Runbook.Proofs.Text.Lines
import Runbook.Proofs.Text.Search
import Runbook.Proofs.Markup.Reading
import Runbook.Proofs.Markup.Run
import Runbook.Markup.Tree

/-! What the blocks of a tree are made of: one token, and the tokens right after it that belong to the same block. -/
namespace Runbook

mutual

/-- A node and all nodes below it. -/
def Node.subtree : Node → List Node
  | .mk kind position data children => .mk kind position data children :: Node.subtrees children

def Node.subtrees : List Node → List Node
  | [] => []
  | n :: ns => Node.subtree n ++ Node.subtrees ns

end

theorem Node.mem_subtrees {m : Node} {ns : List Node} : m ∈ Node.subtrees ns ↔ ∃ n ∈ ns, m ∈ n.subtree := by
  induction ns with
  | nil => simp [Node.subtrees]
  | cons n ns ih => simp [Node.subtrees, ih]

/-- Items, paragraphs and texts, which may stand below a block. -/
def NodeKind.isInner : NodeKind → Bool
  | .item .. | .paragraph | .text _ => true
  | _ => false

namespace Markup

variable {k : Token} {ks post : List Token} {n m : Node} {l : Int} {v : Text}

/-- The block that starts with a token, given the tokens after it. -/
def blockAt (k : Token) (ks : List Token) : Option Node :=
  match k.kind with
  | .heading => some (headingNode k)
  | .fenceOpen => some (codeNode k (codeRun k.line ks))
  | .comment => some (commentNode k ⟨[], k.line, ks⟩)
  | .commentOpen => some (commentNode k (commentRun k.line ks))
  | .listItem => some (listNode k (listRun k.ordered k.line ks))
  | .paragraph => some (paragraphNode k (paragraphRun k.line ks))
  | .blank | .fenceClose | .codeLine | .commentLine | .commentClose => none

/-- The tokens that are left when a block has been read. -/
def restAfter (k : Token) (ks : List Token) : List Token :=
  match k.kind with
  | .fenceOpen => (codeRun k.line ks).rest
  | .commentOpen => (commentRun k.line ks).rest
  | .listItem => (listRun k.ordered k.line ks).rest
  | .paragraph => (paragraphRun k.line ks).rest
  | .heading | .comment | .blank | .fenceClose | .codeLine | .commentLine | .commentClose => ks

theorem blocks_cons (k : Token) (ks : List Token) :
    blocks (k :: ks) = (blockAt k ks).toList ++ blocks (restAfter k ks) := by
  rw [blocks]
  cases hk : k.kind <;> simp [blockAt, restAfter, hk]

/-- What a block takes after its first token opens no other block of code. -/
theorem restAfter_taken (k : Token) (ks : List Token) :
    ∃ taken, ks = taken ++ restAfter k ks ∧ ∀ x ∈ taken, x.kind ≠ .fenceOpen := by
  have hclosing : ∀ {i c : TokenKind} {body close : List Token}, (∀ x ∈ body, x.kind = i) → IsClosing c close →
      i ≠ .fenceOpen → c ≠ .fenceOpen → ∀ x ∈ body ++ close, x.kind ≠ .fenceOpen := by
    intro i c body close hb hc hi hne x hx
    rcases List.mem_append.mp hx with hx | hx
    · rwa [hb x hx]
    · rwa [hc.kind_eq hx]
  unfold restAfter
  split
  · obtain ⟨body, close, hks, hb, hc, -⟩ := codeRun_taken k.line ks
    exact ⟨body ++ close, hks, hclosing hb hc (by decide) (by decide)⟩
  · obtain ⟨body, close, hks, hb, hc, -⟩ := commentRun_taken k.line ks
    exact ⟨body ++ close, hks, hclosing hb hc (by decide) (by decide)⟩
  · obtain ⟨taken, hks, ht, -⟩ := listRun_taken k.ordered k.line ks
    exact ⟨taken, hks, fun x hx => by rcases ht.kind_eq x hx with h | h <;> simp [h]⟩
  · obtain ⟨taken, hks, ht, -⟩ := paragraphRun_taken k.line ks
    exact ⟨taken, hks, fun x hx => by simp [ht x hx]⟩
  all_goals exact ⟨[], rfl, by simp⟩

theorem restAfter_suffix (k : Token) (ks : List Token) : restAfter k ks <:+ ks := by
  obtain ⟨taken, hks, -⟩ := restAfter_taken k ks
  exact ⟨taken, hks.symm⟩

/-- Each block starts at one token of the stream. -/
theorem mem_blocks (h : n ∈ blocks ks) : ∃ k post, k :: post <:+ ks ∧ blockAt k post = some n := by
  induction hl : ks.length using Nat.strongRecOn generalizing ks with
  | ind l ih =>
    cases ks with
    | nil => simp [blocks] at h
    | cons k ks =>
      rw [blocks_cons, List.mem_append] at h
      rcases h with h | h
      · exact ⟨k, ks, List.suffix_refl _, Option.mem_toList.mp h⟩
      · have hrest := restAfter_suffix k ks
        have hlt := hrest.length_le
        rw [List.length_cons] at hl
        obtain ⟨j, post, hj, hn⟩ := ih _ (by omega) h rfl
        exact ⟨j, post, (hj.trans hrest).trans (List.suffix_cons k ks), hn⟩

/-- Below a block stand items, paragraphs and texts, with no data of their own. -/
theorem mem_subtree_blockAt (h : blockAt k ks = some n) (hm : m ∈ n.subtree) :
    m = n ∨ m.data = [] ∧ m.kind.isInner = true := by
  have hbelow : m ∈ Node.subtrees n.children → m.data = [] ∧ m.kind.isInner = true := by
    intro hm
    unfold blockAt at h
    split at h <;> cases h
    case h_1 | h_6 =>
      obtain rfl := List.mem_singleton.mp hm
      exact ⟨rfl, rfl⟩
    case h_5 =>
      obtain ⟨i, hi, hm⟩ := Node.mem_subtrees.mp hm
      obtain ⟨j, -, rfl⟩ := List.mem_map.mp hi
      simp only [itemNode, Node.ofText, Node.subtree, Node.subtrees, List.mem_cons, List.append_nil,
        List.not_mem_nil, or_false] at hm
      rcases hm with rfl | rfl | rfl <;> exact ⟨rfl, rfl⟩
    all_goals cases hm
  cases n with
  | mk kind position data children =>
    rcases List.mem_cons.mp hm with rfl | hm
    · exact .inl rfl
    · exact .inr (hbelow hm)

/-- A comment node is a block of its own, and holds the lines of its tokens, which are tokens in a row. -/
theorem html_of_blockAt (h : blockAt k ks = some n) (hv : n.kind = .html v) :
    ∃ taken, taken <+: k :: ks ∧ (∀ j ∈ taken, j.kind.keepsLine = true) ∧
      v = (Text.joinLines (taken.map (·.text))).strip := by
  unfold blockAt at h
  split at h <;> cases h
  case h_3 hk =>
    cases hv
    exact ⟨[k], ⟨ks, rfl⟩, by simp [hk, TokenKind.keepsLine], rfl⟩
  case h_4 hk =>
    cases hv
    obtain ⟨body, close, hks, hb, hc, hl, -⟩ := commentRun_taken k.line ks
    refine ⟨k :: (body ++ close), ⟨(commentRun k.line ks).rest, ?_⟩, ?_, by rw [List.map_cons, hl]⟩
    · rw [List.cons_append, ← hks]
    · intro j hj
      rcases List.mem_cons.mp hj with rfl | hj
      · rw [hk]
        rfl
      · rcases List.mem_append.mp hj with hj | hj
        · rw [hb j hj]
          rfl
        · rw [hc.kind_eq hj]
          rfl
  all_goals cases hv

variable {t : Text}

theorem mem_subtree_treeOf (h : m ∈ (treeOf t).subtree) :
    m = treeOf t ∨ ∃ n ∈ (treeOf t).children, ∃ k post, k :: post <:+ tokenize t ∧ blockAt k post = some n ∧
      m ∈ n.subtree := by
  rcases List.mem_cons.mp h with h | h
  · exact .inl h
  · obtain ⟨n, hn, hm⟩ := Node.mem_subtrees.mp h
    obtain ⟨k, post, hk, hb⟩ := mem_blocks hn
    exact .inr ⟨n, hn, k, post, hk, hb, hm⟩

/-- Data is written by annotation only. -/
theorem data_of_mem_treeOf (h : m ∈ (treeOf t).subtree) : m.data = [] := by
  rcases mem_subtree_treeOf h with rfl | ⟨n, -, k, post, -, hb, hm⟩
  · rfl
  · rcases mem_subtree_blockAt hb hm with rfl | ⟨hd, -⟩
    · unfold blockAt at hb
      split at hb <;> cases hb <;> rfl
    · exact hd

/-- The comment nodes of a document stand right below its root. -/
theorem mem_children_of_html (h : m ∈ (treeOf t).subtree) (hv : m.kind = .html v) :
    m ∈ (treeOf t).children ∧ ∃ k post, k :: post <:+ tokenize t ∧ blockAt k post = some m := by
  rcases mem_subtree_treeOf h with rfl | ⟨n, hn, k, post, hk, hb, hm⟩
  · cases hv
  · rcases mem_subtree_blockAt hb hm with rfl | ⟨-, hinner⟩
    · exact ⟨hn, k, post, hk, hb⟩
    · rw [hv] at hinner
      cases hinner

/-- What a comment node of a document holds stands in the document as it is, but for its line ends. -/
theorem html_infix_unixLines (h : m ∈ (treeOf t).subtree) (hv : m.kind = .html v) : v <:+: t.unixLines := by
  obtain ⟨-, k, post, hk, hb⟩ := mem_children_of_html h hv
  obtain ⟨taken, ht, hkeeps, rfl⟩ := html_of_blockAt hb hv
  have hl := texts_infix_lines (ht.isInfix.trans hk.isInfix) hkeeps
  rw [← Text.joinLines_lines]
  exact (Text.strip_infix _).trans (Text.join_infix hl)

end Markup
end Runbook
