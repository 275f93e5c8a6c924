import Runbook.Proofs.Document.Annotation
import Runbook.Proofs.Document.Detection

/-!
When a text can be read as a document. All faults come from JSON and YAML that is well formed and refused nevertheless;
what is not well formed is passed over.
-/
namespace Runbook

open Markup (treeOf fences)

variable {t body : Text} {l : Int} {n : Node} {cs : List Comment}

namespace Directive

/-- The text of a comment that has to hold JSON, which is refused for what it says. -/
def IsRefused (body : Text) : Prop :=
  ∃ (rest : Text) (f : ReadFault), namespace? (body.dropWhile Text.isBlank) = some (.kyozo, rest) ∧
    rest.strip.head? = some '\x7b' ∧ Json.read rest.strip = .error f ∧ f ≠ .malformed

variable {space : Namespace} {rest : Text}

theorem isRefused_iff (hn : namespace? (body.dropWhile Text.isBlank) = some (space, rest)) :
    IsRefused body ↔ (space = .kyozo ∧ rest.strip.head? = some '\x7b') ∧
      ∃ f, Json.read rest.strip = .error f ∧ f ≠ .malformed := by
  constructor
  · rintro ⟨rest', f, hn', hhead, hf⟩
    cases hn.symm.trans hn'
    exact ⟨⟨rfl, hhead⟩, f, hf⟩
  · rintro ⟨⟨rfl, hhead⟩, f, hf⟩
    exact ⟨rest, f, hn, hhead, hf⟩

theorem ofComment_returns_iff : (∃ d, ofComment body l = .ok d) ↔ ¬ IsRefused body := by
  cases hn : namespace? (body.dropWhile Text.isBlank) with
  | none =>
    refine iff_of_true ⟨none, by rw [ofComment, hn]⟩ ?_
    rintro ⟨rest, f, hb, -⟩
    cases hn.symm.trans hb
  | some p =>
    obtain ⟨space, rest⟩ := p
    rw [isRefused_iff hn, ofComment, hn]
    dsimp only
    split
    · rename_i hjson
      rw [and_iff_right hjson]
      cases Json.read rest.strip with
      | ok v => exact iff_of_true (by cases v <;> exact ⟨_, rfl⟩) (by simp)
      | error f =>
        cases f with
        | malformed => exact iff_of_true ⟨none, rfl⟩ (by simp)
        | _ => exact iff_of_false (by rintro ⟨d, hd⟩; cases hd) (by simp)
    · rename_i hjson
      exact iff_of_true (by split <;> exact ⟨_, rfl⟩) fun h => hjson h.1

theorem ofComments_returns_iff :
    (∃ ds, ofComments cs = .ok ds) ↔ ∀ c ∈ cs, ∃ d, ofComment c.body c.line = .ok d := by
  induction cs with
  | nil => exact ⟨fun _ => by simp, fun _ => ⟨[], rfl⟩⟩
  | cons c cs ih =>
    rw [ofComments, List.forall_mem_cons, ← ih, exists_bind_eq_ok_iff]
    constructor
    · rintro ⟨d, hd, h⟩
      refine ⟨⟨d, hd⟩, ?_⟩
      cases d with
      | none => exact h
      | some d =>
        obtain ⟨ds, hds, -⟩ := exists_bind_eq_ok_iff.mp h
        exact ⟨ds, hds⟩
    · rintro ⟨⟨d, hd⟩, ds, hds⟩
      refine ⟨d, hd, ?_⟩
      cases d with
      | none => exact ⟨ds, hds⟩
      | some d => exact exists_bind_eq_ok_iff.mpr ⟨ds, hds, _, rfl⟩

end Directive

namespace Manifest

/-- A text that is well formed and stands for no data, or for data whose kind cannot be written down. -/
inductive IsRefused (t : Text) : Prop
  | unread {ds : List Yaml.Data} {f : ReadFault} (h : Yaml.documents t = (ds, some f)) (hf : f ≠ .malformed)
  | unwritable {ds : List Yaml.Data} {d kind : Yaml.Data} {f : ReadFault} (h : Yaml.documents t = (ds, none))
      (hd : ds.find? isManifest = some d) (hk : d.get? "kind" = some kind) (hf : kind.toText = .error f)

theorem kind?_returns_iff : (∃ kind, kind? t = .ok kind) ↔ ¬ IsRefused t := by
  unfold kind?
  split
  · rename_i hdocs
    refine iff_of_true ⟨none, rfl⟩ ?_
    rintro (⟨h, hne⟩ | ⟨h, -, -, -⟩)
    · cases hdocs.symm.trans h
      exact hne rfl
    · cases hdocs.symm.trans h
  · rename_i f hf hdocs
    refine iff_of_false nofun fun h => h (.unread hdocs ?_)
    rintro rfl
    exact hf rfl
  · rename_i ds hdocs
    split
    · rename_i kind hk
      obtain ⟨d, hd, hkind⟩ := Option.bind_eq_some_iff.mp hk
      cases ht : kind.toText with
      | ok text =>
        refine iff_of_true ⟨some text, rfl⟩ ?_
        rintro (⟨h, -⟩ | ⟨h, hd', hkind', hf⟩)
        · cases hdocs.symm.trans h
        · cases hdocs.symm.trans h
          cases hd.symm.trans hd'
          cases hkind.symm.trans hkind'
          cases ht.symm.trans hf
      | error f => exact iff_of_false nofun fun h => h (.unwritable hdocs hd hkind ht)
    · rename_i hk
      refine iff_of_true ⟨none, rfl⟩ ?_
      rintro (⟨h, -⟩ | ⟨h, hd, hkind, -⟩)
      · cases hdocs.symm.trans h
      · cases hdocs.symm.trans h
        rw [hd, Option.bind_some] at hk
        cases hk.symm.trans hkind

end Manifest

theorem Node.directive?_returns_iff :
    (∃ d, n.directive? = .ok d) ↔ ∀ body, n.commentBody? = some body → ¬ Directive.IsRefused body := by
  unfold directive?
  cases h : n.commentBody? with
  | none => exact ⟨fun _ => by simp, fun _ => ⟨none, rfl⟩⟩
  | some body =>
    dsimp only
    rw [Directive.ofComment_returns_iff]
    constructor
    · intro hr body' he
      cases he
      exact hr
    · intro hr
      exact hr body rfl

theorem Classification.ofText_returns_iff : (∃ c, Classification.ofText t = .ok c) ↔
    (∃ ds, Directive.all t = .ok ds) ∧ ∃ as, Detector.kubernetes (fences t) = .ok as := by
  constructor
  · rintro ⟨c, hc⟩
    obtain ⟨ds, found, hds, hfound, -⟩ := ofTextWith_eq_ok_iff.mp hc
    obtain ⟨as, has⟩ := hfound.exists_of_mem (l := .kubernetes) (by decide)
    exact ⟨⟨ds, hds⟩, as, (hfound.detect has).2⟩
  · rintro ⟨⟨ds, hds⟩, hk⟩
    have hdetect : ∀ l ∈ Detector.priority, ∃ as, Detector.detect l (fences t) ds = .ok as :=
      fun l _ => Detector.detect_returns_iff.mpr fun _ => hk
    obtain ⟨found, hfound⟩ := exists_found_iff.mpr hdetect
    exact ⟨_, ofTextWith_eq_ok_iff.mpr ⟨ds, found, hds, hfound, rfl⟩⟩

/-- Nothing in the text that has to be JSON or YAML is refused. -/
structure Legible (t : Text) : Prop where
  comments : ∀ c ∈ Comment.all t, ¬ Directive.IsRefused c.body
  nodes : ∀ n ∈ (treeOf t).children, ∀ body, n.commentBody? = some body → ¬ Directive.IsRefused body
  manifests : ∀ f ∈ fences t, Detector.mayBeManifest f = true → ¬ Manifest.IsRefused f.content

theorem annotate_returns_iff {c : Classification} : (∃ root, (treeOf t).annotate c = .ok root) ↔
    ∀ n ∈ (treeOf t).children, ∃ d, n.directive? = .ok d := by
  constructor
  · rintro ⟨root, h⟩ n hn
    obtain ⟨ns, hns, -⟩ := bind_eq_ok_iff.mp h
    exact Node.directive?_of_annotatedAll hns hn
  · intro h
    have hall : ∀ m ∈ Node.subtrees (treeOf t).children, ∃ d, m.directive? = .ok d := by
      intro m hm
      -- only comment nodes are read at all, and they stand right below the root
      by_cases hv : ∃ v, m.kind = .html v
      · obtain ⟨v, hv⟩ := hv
        exact h m (Markup.mem_children_of_html (List.mem_cons_of_mem _ hm) hv).1
      · refine ⟨none, ?_⟩
        rw [Node.directive?]
        cases hb : m.commentBody? with
        | none => rfl
        | some body =>
          obtain ⟨v, hkind, -⟩ := Node.commentBody?_eq_some hb
          exact (hv ⟨v, hkind⟩).elim
    obtain ⟨ns, hns⟩ := Node.annotatedAll_returns c.artifacts [] _ hall
    exact exists_bind_eq_ok_iff.mpr ⟨ns, hns, _, rfl⟩

/-- A text is read as a document exactly when it is legible: an impossible date in YAML, say, refuses the whole text. -/
theorem ofText_returns_iff_legible : (∃ d, Document.ofText t = .ok d) ↔ Legible t := by
  have hcomments : (∃ ds, Directive.all t = .ok ds) ↔ ∀ c ∈ Comment.all t, ¬ Directive.IsRefused c.body := by
    rw [Directive.all, Directive.ofComments_returns_iff]
    simp only [Directive.ofComment_returns_iff]
  have hmanifests : (∃ as, Detector.kubernetes (fences t) = .ok as) ↔
      ∀ f ∈ fences t, Detector.mayBeManifest f = true → ¬ Manifest.IsRefused f.content := by
    rw [Detector.kubernetes_returns_iff]
    simp only [Manifest.kind?_returns_iff]
  have hnodes : ∀ c, (∃ root, (treeOf t).annotate c = .ok root) ↔ ∀ n ∈ (treeOf t).children, ∀ body,
      n.commentBody? = some body → ¬ Directive.IsRefused body := by
    intro c
    rw [annotate_returns_iff]
    simp only [Node.directive?_returns_iff]
  rw [Document.ofText, exists_bind_eq_ok_iff]
  constructor
  · rintro ⟨c, hc, h⟩
    obtain ⟨hds, hk⟩ := Classification.ofText_returns_iff.mp ⟨c, hc⟩
    obtain ⟨root, hroot, -⟩ := exists_bind_eq_ok_iff.mp h
    exact ⟨hcomments.mp hds, (hnodes c).mp ⟨root, hroot⟩, hmanifests.mp hk⟩
  · rintro ⟨hc, hn, hm⟩
    obtain ⟨c, hclass⟩ := Classification.ofText_returns_iff.mpr ⟨hcomments.mpr hc, hmanifests.mpr hm⟩
    obtain ⟨root, hroot⟩ := (hnodes c).mpr hn
    exact ⟨c, hclass, exists_bind_eq_ok_iff.mpr ⟨root, hroot, _, rfl⟩⟩

/-- A manifest with a month that no year has. -/
def impossibleDate : Text := "```yaml\napiVersion: v1\nkind: Pod\nspec: 2024-13-45\n```\n"

theorem ofText_refuses_impossibleDate : ¬ ∃ d, Document.ofText impossibleDate = .ok d := by
  have h : (Document.ofText impossibleDate).isOk = false := by decide +kernel
  rintro ⟨d, hd⟩
  rw [hd] at h
  cases h

end Runbook
