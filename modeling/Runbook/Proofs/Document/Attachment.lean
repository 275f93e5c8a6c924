import Runbook.Proofs.Document.CommentNode
import Runbook.Proofs.Document.Decoration
import Runbook.Proofs.Document.Detection

/-!
The directives that are attached to blocks of code, and those of the text. What the tree attaches stands in the text, and
is found there as long as it is one comment and no comment before it is still open.
-/
namespace Runbook

open Markup (blockAt treeOf)

variable {P : Directive → Prop} {as : List Artifact} {pending : List Directive} {n n' m : Node} {ns ns' : List Node}
  {k : Token} {ks : List Token} {t : Text} {doc : Document}

namespace Node

/-- A node as the tree has it: no data, no children where its kind has none, and any directive in it of a kind `P`. -/
structure IsBare (P : Directive → Prop) (n : Node) : Prop where
  data : n.data = []
  children : n.kind.isParent = false → n.children = []
  directive : ∀ d, n.directive? = .ok (some d) → P d

/-- The data of a block of code comes from directives of a kind `P`. -/
def IsFrom (P : Directive → Prop) (as : List Artifact) (n : Node) : Prop :=
  ∀ lang info value, n.kind = .code lang info value →
    ∃ ds : List Directive, (∀ d ∈ ds, P d) ∧ n.data = codeData as ds n.line? value []

/-- Annotation with directives of a kind `P` has written the data of the node. -/
def IsWritten (P : Directive → Prop) (as : List Artifact) (n : Node) : Prop :=
  ∃ ds : List Directive, (∀ d ∈ ds, P d) ∧ n.data = dataBy as ds n.line? n.kind []

theorem IsWritten.isFrom (h : IsWritten P as n) : IsFrom P as n := by
  obtain ⟨ds, hds, hdata⟩ := h
  intro lang info value hkind
  rw [hkind] at hdata
  exact ⟨ds, hds, hdata⟩

theorem html_of_directive? {d : Directive} (h : n.directive? = .ok (some d)) : ∃ v, n.kind = .html v := by
  cases hbody : n.commentBody? with
  | none =>
    rw [directive?, hbody] at h
    cases h
  | some body =>
    obtain ⟨v, hv, -⟩ := commentBody?_eq_some hbody
    exact ⟨v, hv⟩

/-- A comment node is left as it is, and nothing is written to it. -/
theorem isWritten_of_directive? {d : Directive} (hn : n.IsBare P) (h : n.directive? = .ok (some d)) :
    ∀ m ∈ n.subtree, IsWritten P as m := by
  obtain ⟨kind, position, data, children⟩ := n
  obtain ⟨v, rfl⟩ := html_of_directive? h
  obtain rfl : children = [] := hn.children rfl
  obtain rfl : data = [] := hn.data
  intro m hm
  obtain rfl := List.mem_singleton.mp hm
  exact ⟨[], by simp, rfl⟩

mutual

/-- A walk that no fault stops gives to each node what waits for it. -/
theorem isWritten_leftBy (as : List Artifact) (pending : List Directive) (n : Node)
    (hn : ∀ m ∈ n.subtree, m.IsBare P) (hp : ∀ d ∈ pending, P d) (h : (leftBy as pending n).2 = none) :
    ∀ m ∈ (leftBy as pending n).1.subtree, IsWritten P as m := by
  match n, hn, h with
  | .mk kind position data children, hn, h =>
    have hself := hn _ List.mem_cons_self
    obtain rfl : data = [] := hself.data
    rw [leftBy] at h ⊢
    intro m hm
    rcases List.mem_cons.mp hm with rfl | hm
    · exact ⟨pending, hp, rfl⟩
    · by_cases hkind : kind.isParent = true
      · rw [if_pos hkind] at h hm
        have hbelow : ∀ m ∈ subtrees children, m.IsBare P := fun m hm => hn m (List.mem_cons_of_mem _ hm)
        exact isWritten_leftByAll as [] children hbelow (by simp) h m hm
      · obtain rfl : children = [] := hself.children (Bool.eq_false_iff.mpr hkind)
        rw [if_neg hkind] at hm
        cases hm

theorem isWritten_leftByAll (as : List Artifact) (pending : List Directive) (ns : List Node)
    (hns : ∀ m ∈ subtrees ns, m.IsBare P) (hp : ∀ d ∈ pending, P d) (h : (leftByAll as pending ns).2 = none) :
    ∀ m ∈ subtrees (leftByAll as pending ns).1, IsWritten P as m := by
  match ns, hns, h with
  | [], _, _ => simp [leftByAll, subtrees]
  | n :: ns, hns, h =>
    simp only [subtrees, List.mem_append] at hns
    have hself : n.IsBare P := hns n (.inl (by cases n; exact List.mem_cons_self))
    have hn : ∀ m ∈ n.subtree, m.IsBare P := fun m hm => hns m (.inl hm)
    have hrest : ∀ m ∈ subtrees ns, m.IsBare P := fun m hm => hns m (.inr hm)
    rw [leftByAll] at h ⊢
    cases hread : n.directive? with
    | error e =>
      rw [hread] at h
      cases h
    | ok d =>
      rw [hread] at h
      cases d with
      | some d =>
        have hp' : ∀ e ∈ pending ++ [d], P e := by
          intro e he
          rcases List.mem_append.mp he with he | he
          · exact hp e he
          · obtain rfl := List.mem_singleton.mp he
            exact hself.directive e hread
        intro m hm
        rcases List.mem_append.mp hm with hm | hm
        · exact isWritten_of_directive? hself hread m hm
        · exact isWritten_leftByAll as (pending ++ [d]) ns hrest hp' h m hm
      | none =>
        have hwritten := isWritten_leftBy as pending n hn hp
        rcases hleft : leftBy as pending n with ⟨left, _ | e⟩
        · rw [hleft] at h hwritten
          intro m hm
          rcases List.mem_append.mp hm with hm | hm
          · exact hwritten rfl m hm
          · exact isWritten_leftByAll as [] ns hrest (by simp) h m hm
        · dsimp only at h
          rw [hleft] at h
          cases h

end

theorem isWritten_of_annotatedAll (hns : ∀ m ∈ subtrees ns, m.IsBare P) (h : annotatedAll as [] ns = .ok ns') :
    ∀ m ∈ subtrees ns', IsWritten P as m := by
  rw [annotatedAll_eq, ended_eq_ok_iff] at h
  have hall := isWritten_leftByAll as [] ns hns (by simp)
  rw [h] at hall
  exact hall rfl

end Node

namespace Markup

theorem children_of_blockAt (h : blockAt k ks = some n) (hm : m ∈ n.subtree) (hleaf : m.kind.isParent = false) :
    m.children = [] := by
  unfold blockAt at h
  split at h <;> cases h
  case h_1 | h_6 =>
    rcases List.mem_cons.mp hm with rfl | hm
    · cases hleaf
    · obtain rfl := List.mem_singleton.mp hm
      rfl
  case h_5 =>
    rcases List.mem_cons.mp hm with rfl | hm
    · cases hleaf
    · obtain ⟨i, hi, hm⟩ := Node.mem_subtrees.mp hm
      obtain ⟨j, -, rfl⟩ := List.mem_map.mp hi
      simp only [itemNode, Node.ofText, Node.subtree, Node.subtrees, List.mem_cons, List.append_nil,
        List.not_mem_nil, or_false] at hm
      rcases hm with rfl | rfl | rfl
      · cases hleaf
      · cases hleaf
      · rfl
  all_goals
    obtain rfl := List.mem_singleton.mp hm
    rfl

theorem isBare_of_mem_treeOf (h : m ∈ (treeOf t).subtree) :
    m.IsBare fun d => ∃ m ∈ (treeOf t).subtree, m.directive? = .ok (some d) where
  data := data_of_mem_treeOf h
  children := by
    intro hleaf
    rcases mem_subtree_treeOf h with rfl | ⟨n, -, k, post, -, hb, hm⟩
    · cases hleaf
    · exact children_of_blockAt hb hm hleaf
  directive := fun d hd => ⟨m, h, hd⟩

end Markup

namespace Document

open Comment (IsAlone IsBody IsClosed)

/-- Of the directives in the envelope of a block of code each one comes from a comment node and stands in the text on lines
of its own. It is a directive of the text exactly where its comment ends at its only end mark and no comment is still open
when it begins. -/
theorem attached_mem_all_iff (ht : '\r' ∉ t) (hdoc : ofText t = .ok doc) :
    ∃ ds, Directive.all t = .ok ds ∧ ∀ n ∈ doc.tree.subtree, ∀ lang info value, n.kind = .code lang info value →
      ∃ pending, n.data = Node.codeData doc.artifacts pending n.line? value [] ∧
        ∀ d ∈ pending, ∃ m ∈ (treeOf t).children, m.directive? = .ok (some d) ∧
          ∃ p body q, IsAlone t p body q ∧ d.raw = Directive.rawOf body ∧ d.line = (1 + p.count '\n' : Nat) ∧
            (d ∈ ds ↔ IsClosed p ∧ IsBody body) := by
  obtain ⟨c, hc, hdoc⟩ := bind_eq_ok_iff.mp hdoc
  obtain ⟨tree, htree, hdoc⟩ := bind_eq_ok_iff.mp hdoc
  cases hdoc
  obtain ⟨ds, found, hds, -, -⟩ := Classification.ofTextWith_eq_ok_iff.mp hc
  refine ⟨ds, hds, ?_⟩
  obtain ⟨ns, hns, htree⟩ := bind_eq_ok_iff.mp htree
  cases htree
  intro n hn lang info value hkind
  rcases List.mem_cons.mp hn with rfl | hn
  · cases hkind
  have hbare : ∀ m ∈ Node.subtrees (treeOf t).children, m.IsBare _ :=
    fun m hm => Markup.isBare_of_mem_treeOf (List.mem_cons_of_mem _ hm)
  obtain ⟨pending, hpending, hdata⟩ :=
    (Node.isWritten_of_annotatedAll hbare hns n hn).isFrom lang info value hkind
  refine ⟨pending, hdata, fun d hd => ?_⟩
  obtain ⟨m, hm, hread⟩ := hpending d hd
  obtain ⟨v, hv⟩ := Node.html_of_directive? hread
  obtain ⟨p, body, q, halone, hbody⟩ := Markup.exists_isAlone ht hm hread
  obtain ⟨hraw, hline⟩ := Directive.raw_of_ofComment hbody
  exact ⟨m, (Markup.mem_children_of_html hm hv).1, hread, p, body, q, halone, hraw, hline,
    Directive.mem_all_iff hds halone hbody⟩

/-- A script with a directive above it. -/
def taggedScript : Text := "<!-- polyglot:executable mode=fast -->\n```sh\necho\n```\n"

def tag : Text := "<!-- polyglot:executable mode=fast -->"

theorem attached_mem_all_taggedScript : '\r' ∉ taggedScript ∧ ∃ doc ds, ofText taggedScript = .ok doc ∧
    Directive.all taggedScript = .ok ds ∧ ∃ n ∈ doc.tree.subtree, n.attached = [.text tag] ∧ ∃ d ∈ ds, d.raw = tag := by
  have ht : '\r' ∉ taggedScript := by decide
  have hread : (ofText taggedScript).toOption.map
      (fun doc => doc.tree.subtree.map fun n => (n.kind, n.attached.map Value.toText)) =
        some [(.root, []), (.html tag, []), (.code (some "sh".toList) none "echo", [tag])] := by
    decide +kernel
  refine ⟨ht, ?_⟩
  cases hdoc : ofText taggedScript with
  | error e =>
    rw [hdoc] at hread
    cases hread
  | ok doc =>
    rw [hdoc] at hread
    have hnodes : doc.tree.subtree.map (fun n => (n.kind, n.attached.map Value.toText)) =
        [(.root, []), (.html tag, []), (.code (some "sh".toList) none "echo", [tag])] := Option.some.inj hread
    obtain ⟨n, hn, hkind, hnamed⟩ : ∃ n ∈ doc.tree.subtree, n.kind = .code (some "sh".toList) none "echo" ∧
        n.attached.map Value.toText = [tag] := by
      have hmem : (NodeKind.code (some "sh".toList) none "echo", [tag]) ∈
          doc.tree.subtree.map fun n => (n.kind, n.attached.map Value.toText) := by
        rw [hnodes]
        simp
      obtain ⟨n, hn, heq⟩ := List.mem_map.mp hmem
      exact ⟨n, hn, (Prod.mk.inj heq).1, (Prod.mk.inj heq).2⟩
    obtain ⟨ds, hds, hall⟩ := attached_mem_all_iff ht hdoc
    obtain ⟨pending, hdata, hplace⟩ := hall n hn _ _ _ hkind
    have hattached := Node.attached_of_codeData hdata
    rw [hattached, List.map_map] at hnamed
    obtain ⟨d, rfl⟩ : ∃ d, pending = [d] := List.length_eq_one_iff.mp (by simpa using congrArg List.length hnamed)
    have hraw : d.raw = tag := List.singleton_inj.mp hnamed
    obtain ⟨m, -, -, p, body, q, halone, hbody, -, hiff⟩ := hplace d List.mem_cons_self
    have hbody : body = " polyglot:executable mode=fast " := Directive.rawOf_injective (hbody.symm.trans hraw)
    have hclosed : IsClosed p := by
      apply Comment.isClosed_of_no_start
      intro hstart
      have hin : '<' ∈ p := hstart.subset List.mem_cons_self
      have hmany := congrArg (List.count '<') halone.text
      rw [List.count_append, List.count_append, Comment.rawOf_cons, List.count_cons_self,
        show taggedScript.count '<' = 1 by decide] at hmany
      have := List.count_pos_iff.mpr hin
      omega
    have hd : d ∈ ds := hiff.mpr ⟨hclosed, by rw [hbody]; unfold IsBody; decide⟩
    refine ⟨doc, ds, rfl, hds, n, hn, ?_, d, hd, hraw⟩
    rw [hattached, List.map_singleton, hraw]

/-- Two comments on one line, of which the tree makes one node. -/
def twoTags : Text := "<!-- polyglot:a --> <!-- polyglot:b -->\n```sh\necho\n```\n"

/-- A start mark in a line of text, which the first end mark after it closes for the one reader and not for the other. -/
def tagAfterMark : Text := "see <!-- here\n\n<!-- polyglot:a -->\n```sh\necho\n```\n"

/-- What a directive says: namespace, name, value if there is one, and the keys of its parameters. -/
def said (d : Directive) : List Text := [d.space.name, d.name] ++ d.value.toList ++ Fields.keys d.params

/-- The directives of the comment nodes of a text. -/
def tagged (t : Text) : List Directive :=
  (treeOf t).children.filterMap fun n => n.directive?.toOption.join

theorem attached_not_mem_all_twoTags :
    (ofText twoTags).toOption.map (fun doc => (doc.tree.subtree.flatMap Node.attached).map Value.toText) =
      some [("<!-- polyglot:a --> <!-- polyglot:b -->" : Text)] ∧
    (tagged twoTags).map said = [Text.ofStrings ["polyglot", "a", "-->", "<!--", "polyglot:b"]] ∧
    (Directive.all twoTags).toOption.map (·.map said) =
      some [Text.ofStrings ["polyglot", "a"], Text.ofStrings ["polyglot", "b"]] ∧
    (ofText tagAfterMark).toOption.map (fun doc => (doc.tree.subtree.flatMap Node.attached).map Value.toText) =
      some [("<!-- polyglot:a -->" : Text)] ∧
    (Directive.all tagAfterMark).toOption.map (·.map said) = some [] := by
  decide +kernel

end Document
end Runbook
