import Runbook.Proofs.Markup.ZeroWidth
import Runbook.Proofs.Document.Attachment

/-!
The texts and blocks of code that are flagged because characters without width stand in them. A byte-order mark that begins
a document is not hidden; one that begins the content of a node is not flagged either, wherever that node stands.
-/
namespace Runbook

open ZeroWidth (isZeroWidth frame)
open Markup (treeOf tokenize readOutside readLines)

variable {P : Directive → Prop} {as : List Artifact} {n m root root' : Node} {t v : Text} {path : List Nat} {doc : Document}

namespace HiddenRun

/-- A byte-order mark, and no more characters without width after it. -/
def IsMarked (v : Text) : Prop := ∃ w, v = frame :: w ∧ ∀ c ∈ w, isZeroWidth c = false

theorem all_eq_nil_iff_isMarked (h : ∃ c ∈ v, isZeroWidth c = true) : all v = [] ↔ IsMarked v := by
  rw [all_eq_nil_iff, inside]
  split
  · rename_i hhead
    obtain ⟨w, rfl⟩ := List.head?_eq_some_iff.mp hhead
    constructor
    · exact fun hw => ⟨w, rfl, hw⟩
    · rintro ⟨w', heq, hw⟩
      rwa [(List.cons.inj heq).2]
  · rename_i hhead
    obtain ⟨c, hc, hzero⟩ := h
    refine iff_of_false (fun hnone => ?_) ?_
    · rw [hnone c hc] at hzero
      cases hzero
    · rintro ⟨w, rfl, -⟩
      exact hhead rfl

end HiddenRun

namespace Node

/-- What stands in a text or in a block of code. -/
def content? (n : Node) : Option Text :=
  match n.kind with
  | .code _ _ value | .text value => some value
  | _ => none

/-- The node at the end of a path, which has the number of a child for each level. -/
def at? : Node → List Nat → Option Node
  | n, [] => some n
  | n, i :: path => n.children[i]?.bind fun m => m.at? path

theorem mem_subtree_of_at? (h : n.at? path = some m) : m ∈ n.subtree := by
  induction path generalizing n with
  | nil =>
    obtain rfl : n = m := Option.some.inj h
    cases n
    exact List.mem_cons_self
  | cons i path ih =>
    obtain ⟨kind, position, data, children⟩ := n
    obtain ⟨child, hchild, hm⟩ := Option.bind_eq_some_iff.mp h
    exact List.mem_cons_of_mem _ (mem_subtrees.mpr ⟨child, List.mem_of_getElem? hchild, ih hm⟩)

/-! Annotation leaves each node at its place -/

theorem kind_plain (n : Node) : n.plain.kind = n.kind := by
  cases n
  rfl

theorem plainAll_eq_map (ns : List Node) : plainAll ns = ns.map plain := by
  induction ns with
  | nil => rfl
  | cons n ns ih => rw [plainAll, ih, List.map_cons]

theorem at?_plain (n : Node) (path : List Nat) : n.plain.at? path = (n.at? path).map plain := by
  induction path generalizing n with
  | nil => rfl
  | cons i path ih =>
    obtain ⟨kind, position, data, children⟩ := n
    rw [plain, at?, at?, Node.children, Node.children, plainAll_eq_map, List.getElem?_map]
    cases children[i]? with
    | none => rfl
    | some child => exact ih child

theorem kind_at?_undecorated (n : Node) (path : List Nat) :
    (n.undecorated.at? path).map kind = (n.at? path).map kind := by
  obtain ⟨kind, position, data, children⟩ := n
  cases path with
  | nil => rfl
  | cons i path =>
    rw [undecorated, at?, at?, Node.children, Node.children, plainAll_eq_map, List.getElem?_map]
    cases children[i]? with
    | none => rfl
    | some child =>
      dsimp only [Option.map_some, Option.bind_some]
      rw [at?_plain, Option.map_map]
      exact congrArg (Option.map · (child.at? path)) (funext kind_plain)

theorem kind_at?_annotate {c : Classification} (h : root.annotate c = .ok root') (path : List Nat) :
    (root'.at? path).map kind = (root.at? path).map kind := by
  rw [← kind_at?_undecorated, undecorated_annotate h, kind_at?_undecorated]

theorem isFlagged_of_data (h : n.data = []) : n.isFlagged = false := by
  rw [isFlagged, h]
  rfl

theorem isFlagged_of_envelope {e : Envelope} (h : n.data = [(Envelope.key, .ofFields e.toFields)]) :
    n.isFlagged = e.hidden := by
  simp [isFlagged, h, Envelope.toFields, Fields.get?, Fields.one, Value.ofFields, Value.get?, Value.getEntry?]

/-- A node is flagged where a hidden run stands in its own content. -/
theorem IsWritten.isFlagged_eq (h : IsWritten P as n) (hv : n.content? = some v) :
    n.isFlagged = !(HiddenRun.all v).isEmpty := by
  obtain ⟨ds, -, hdata⟩ := h
  unfold content? at hv
  split at hv
  · rename_i hkind
    cases hv
    rw [hkind] at hdata
    dsimp only [dataBy, codeData] at hdata
    split at hdata
    · rename_i hnone
      rw [isFlagged_of_data hdata]
      exact (Bool.eq_false_iff.mpr hnone.2.2).symm
    · exact isFlagged_of_envelope hdata
  · rename_i hkind
    cases hv
    rw [hkind] at hdata
    dsimp only [dataBy, textData] at hdata
    split at hdata
    · rename_i hnone
      rw [isFlagged_of_data hdata, hnone]
      rfl
    · rename_i hsome
      rw [isFlagged_of_envelope hdata, Bool.eq_false_iff.mpr hsome]
      rfl
  · cases hv

end Node

/-! A document that begins with a byte-order mark -/

namespace Markup

/-- No rule for lines applies to a line that begins with the mark. -/
theorem readOutside_frame (n : Nat) (l : Text) :
    readOutside n (frame :: l) = ({ kind := .paragraph, line := n, text := frame :: l }, .outside) := by
  have hindented : indented? (frame :: l) = some (frame :: l) := by
    simp [indented?, frame]
  have hfence : fenceOpening? (frame :: l) = none := by
    rw [fenceOpening?, hindented]
    rfl
  obtain ⟨w, hstrip⟩ := Text.strip_cons (c := frame) (by decide) l
  have hcomment : Text.after? commentStart (Text.strip (frame :: l)) = none := by
    rw [hstrip]
    rfl
  have hheading : heading? (frame :: l) = none := by
    rw [heading?, hindented]
    rfl
  have hbullet : bullet? (frame :: l) = none := by
    rw [bullet?, hindented]
    rfl
  have hordered : ordered? (frame :: l) = none := by
    have hdigits : (frame :: l).takeWhile Text.isDigit = [] := List.takeWhile_cons_of_neg (by decide)
    rw [ordered?, hindented]
    dsimp only [bind, Option.bind]
    rw [hdigits]
    rfl
  rw [readOutside, hfence]
  dsimp only
  rw [hcomment]
  dsimp only
  rw [hheading]
  dsimp only
  rw [hbullet]
  dsimp only
  rw [hordered, hstrip]
  rfl

/-- The mark then stands at the start of a paragraph, which is the first block. -/
theorem at?_treeOf_frame (r : Text) :
    ∃ n w, (treeOf (frame :: r)).at? [0, 0] = some n ∧ n.kind = .text (frame :: w) := by
  obtain ⟨l, ls, hl⟩ := Text.lines_cons (c := frame) (by decide) (by decide) r
  have hfirst : tokenize (frame :: r) =
      { kind := .paragraph, line := 1, text := frame :: l } :: readLines .outside 2 ls := by
    rw [tokenize, hl, readLines, readLine, readOutside_frame]
    rfl
  have htree : (treeOf (frame :: r)).at? [0, 0] =
      some (.ofText (Text.joinLines ((frame :: l) :: (paragraphRun 1 (readLines .outside 2 ls)).lines))) := by
    rw [treeOf, hfirst, rootOf, blocks_cons]
    rfl
  exact ⟨_, _, htree, congrArg NodeKind.text (Text.joinLines_cons_cons frame l _)⟩

end Markup

namespace Document

/-- The byte-order mark that the document begins with stands at the start of the content, and is the only character without
width in it. -/
def IsFirstMark (t : Text) (path : List Nat) (v : Text) : Prop :=
  t.head? = some frame ∧ path = [0, 0] ∧ HiddenRun.IsMarked v

/-- Whatever is hidden in a text or in a block of code is flagged there, but for the mark at the start of the document. -/
def FlagsAll (t : Text) (root : Node) : Prop :=
  ∀ path n v, root.at? path = some n → n.content? = some v → (∃ c ∈ v, isZeroWidth c = true) →
    n.isFlagged = true ∨ IsFirstMark t path v

theorem isFlagged_eq_of_mem (h : ofText t = .ok doc) (hn : n ∈ doc.tree.subtree) (hv : n.content? = some v) :
    n.isFlagged = !(HiddenRun.all v).isEmpty := by
  obtain ⟨c, -, h⟩ := bind_eq_ok_iff.mp h
  obtain ⟨tree, htree, h⟩ := bind_eq_ok_iff.mp h
  cases h
  obtain ⟨ns, hns, htree⟩ := bind_eq_ok_iff.mp htree
  cases htree
  rcases List.mem_cons.mp hn with rfl | hn
  · cases hv
  have hbare : ∀ m ∈ Node.subtrees (treeOf t).children, m.IsBare _ :=
    fun m hm => Markup.isBare_of_mem_treeOf (List.mem_cons_of_mem _ hm)
  exact (Node.isWritten_of_annotatedAll hbare hns n hn).isFlagged_eq hv

/-- The nodes that are not flagged although characters without width stand in them are those whose content begins with a
byte-order mark and has no other such character. Where the document begins with the mark the first paragraph may be one; so
all is flagged exactly if there is no other such node. -/
theorem flagsAll_iff (h : ofText t = .ok doc) :
    (∀ path n v, doc.tree.at? path = some n → n.content? = some v → (∃ c ∈ v, isZeroWidth c = true) →
      (n.isFlagged = false ↔ HiddenRun.IsMarked v)) ∧
    (t.head? = some frame → ∃ n w, doc.tree.at? [0, 0] = some n ∧ n.kind = .text (frame :: w)) ∧
    (FlagsAll t doc.tree ↔ ∀ path n v, doc.tree.at? path = some n → n.content? = some v → HiddenRun.IsMarked v →
      t.head? = some frame ∧ path = [0, 0]) := by
  have hflag : ∀ path n v, doc.tree.at? path = some n → n.content? = some v → (∃ c ∈ v, isZeroWidth c = true) →
      (n.isFlagged = false ↔ HiddenRun.IsMarked v) := by
    intro path n v hn hv hc
    rw [isFlagged_eq_of_mem h (Node.mem_subtree_of_at? hn) hv, ← HiddenRun.all_eq_nil_iff_isMarked hc]
    simp
  refine ⟨hflag, ?_, ?_, ?_⟩
  · intro hhead
    obtain ⟨r, rfl⟩ := List.head?_eq_some_iff.mp hhead
    obtain ⟨c, -, h⟩ := bind_eq_ok_iff.mp h
    obtain ⟨tree, htree, h⟩ := bind_eq_ok_iff.mp h
    cases h
    obtain ⟨m, w, hm, hkind⟩ := Markup.at?_treeOf_frame r
    have hsame := Node.kind_at?_annotate htree [0, 0]
    rw [hm, Option.map_some, hkind, Option.map_eq_some_iff] at hsame
    obtain ⟨n, hn, hkind⟩ := hsame
    exact ⟨n, w, hn, hkind⟩
  · intro hall path n v hn hv hmarked
    obtain ⟨w, rfl, -⟩ := id hmarked
    have hc : ∃ c ∈ frame :: w, isZeroWidth c = true := ⟨frame, List.mem_cons_self, rfl⟩
    rcases hall path n _ hn hv hc with hflagged | ⟨hhead, hpath, -⟩
    · rw [(hflag path n _ hn hv hc).mpr hmarked] at hflagged
      cases hflagged
    · exact ⟨hhead, hpath⟩
  · intro hfirst path n v hn hv hc
    cases hflagged : n.isFlagged with
    | true => exact .inl rfl
    | false =>
      have hmarked := (hflag path n v hn hv hc).mp hflagged
      obtain ⟨hhead, hpath⟩ := hfirst path n v hn hv hmarked
      exact .inr ⟨hhead, hpath, hmarked⟩

/-- Hidden characters in a heading, and in a block of code right after a byte-order mark. -/
def hiddenTwice : Text := "# a\u200b\n\n```sh\n\ufeff\u2060\n```\n"

theorem flagsAll_iff_hiddenTwice : ∃ doc, ofText hiddenTwice = .ok doc ∧ FlagsAll hiddenTwice doc.tree ∧
    doc.tree.subtree.filterMap Node.content? = Text.ofStrings ["a\u200b", "\ufeff\u2060"] := by
  have hread : (ofText hiddenTwice).toOption.map (fun doc => doc.tree.subtree.filterMap Node.content?) =
      some (Text.ofStrings ["a\u200b", "\ufeff\u2060"]) := by
    decide +kernel
  cases hdoc : ofText hiddenTwice with
  | error e =>
    rw [hdoc] at hread
    cases hread
  | ok doc =>
    rw [hdoc] at hread
    have hcontents : doc.tree.subtree.filterMap Node.content? = Text.ofStrings ["a\u200b", "\ufeff\u2060"] :=
      Option.some.inj hread
    refine ⟨doc, rfl, (flagsAll_iff hdoc).2.2.mpr fun path n v hn hv hmarked => ?_, hcontents⟩
    have hmem : v ∈ doc.tree.subtree.filterMap Node.content? :=
      List.mem_filterMap.mpr ⟨n, Node.mem_subtree_of_at? hn, hv⟩
    rw [hcontents] at hmem
    obtain ⟨w, hw, hnone⟩ := hmarked
    rcases List.mem_pair.mp hmem with rfl | rfl
    · cases hw
    · cases hw
      cases hnone ZeroWidth.padding List.mem_cons_self

/-- A byte-order mark that begins the second paragraph. -/
def lateMark : Text := "a\n\n\ufeffb\n"

theorem not_flagsAll_lateMark : ∃ doc, ofText lateMark = .ok doc ∧ HiddenRun.all lateMark = [⟨3, 1, none⟩] ∧
    ¬ FlagsAll lateMark doc.tree := by
  have hread : (ofText lateMark).toOption.map (fun doc => (doc.tree.at? [1, 0]).map fun n => (n.content?, n.isFlagged)) =
      some (some (some ("\ufeffb" : Text), false)) := by
    decide +kernel
  cases hdoc : ofText lateMark with
  | error e =>
    rw [hdoc] at hread
    cases hread
  | ok doc =>
    rw [hdoc] at hread
    obtain ⟨n, hn, heq⟩ := Option.map_eq_some_iff.mp (Option.some.inj hread)
    obtain ⟨hv, hflagged⟩ := Prod.mk.inj heq
    refine ⟨doc, rfl, by decide +kernel, fun hall => ?_⟩
    rcases hall [1, 0] n _ hn hv ⟨frame, List.mem_cons_self, rfl⟩ with h | ⟨hhead, -⟩
    · rw [hflagged] at h
      cases h
    · cases hhead

end Document
end Runbook
