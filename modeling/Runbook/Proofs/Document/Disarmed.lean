import Runbook.Proofs.Markup.Redaction
import Runbook.Proofs.Document.Annotation
import Runbook.Proofs.Document.Detection

/-! What is clean for the sanitizer holds nothing that any reader of directives, links or hidden runs could take up. -/
namespace Runbook

open Markup (treeOf)
open Sanitize (Clean sanitize clean_sanitize)

variable {t : Text} {n : Node} {ls : List Language}

namespace Sanitize

theorem Clean.hiddenRuns (h : Clean t) : HiddenRun.all t = [] := by
  rw [HiddenRun.all, Text.hits_eq_nil_iff.mpr (Text.silent_runOf_iff.mpr h.hidden)]
  rfl

theorem Clean.contentLinks (h : Clean t) : ContentLink.all t = [] :=
  ContentLink.all_eq_nil (ContentLink.silent_atStart_iff.mpr h.links)

/-- A comment node is cut out of the text line by line; what it holds would be a directive comment of the text. -/
theorem Clean.isPlain (h : Clean t) (hn : n ∈ (treeOf t).subtree) : n.IsPlain := by
  refine ⟨Markup.data_of_mem_treeOf hn, Node.directive?_eq_none fun v hv s hs hsv => ?_⟩
  obtain ⟨s', hs', hst⟩ := hs.exists_of_unixLines (hsv.trans (Markup.html_infix_unixLines hn hv))
  exact h.directives s' hs' hst

end Sanitize

theorem Detector.executable_nil (fences : List Fence) : Detector.executable fences [] = [] := rfl

/-- Without directives the detector of executables finds nothing, and so it decides nothing. -/
theorem Classification.decide_ne_executable {fences : List Fence} {found : List (Language × List Artifact)}
    (h : Found fences [] ls found) : decide found ≠ .executable := by
  intro he
  have hne : decide found ≠ .none := by
    rw [he]
    simp
  obtain ⟨as, hm, has⟩ := exists_of_decide_ne_none hne
  rw [he] at hm
  have hd : Detector.detect .executable fences [] = .ok as := (h.detect hm).2
  rw [Detector.detect, Detector.executable_nil] at hd
  cases hd
  exact has rfl

/-- Nothing in a text is read as a directive, a content link or a hidden run, in whatever way it is read. -/
structure Disarmed (t : Text) : Prop where
  directives : Directive.all t = .ok []
  hidden : HiddenRun.all t = []
  links : ContentLink.all t = []
  metadata : ∀ ds, Directive.all t = .ok ds →
    Classification.metadataOf ds (HiddenRun.all t) (ContentLink.all t) = []
  executable : ∀ ds fences, Directive.all t = .ok ds → Detector.executable fences ds = []
  classification : ∀ ls c, Classification.ofTextWith ls t = .ok c →
    c.metadata = [] ∧ c.language ≠ .executable
  comments : ∀ n ∈ (treeOf t).subtree, n.directive? = .ok none
  annotation : ∀ c, ∃ root, (treeOf t).annotate c = .ok root ∧ ∀ n ∈ root.subtree, n.attached = []

theorem disarmed_sanitize (t : Text) : Disarmed (sanitize t) := by
  have h := clean_sanitize t
  have hd : Directive.all (sanitize t) = .ok [] := Directive.all_eq_nil h.directives
  have hm : Classification.metadataOf [] (HiddenRun.all (sanitize t)) (ContentLink.all (sanitize t)) = [] := by
    rw [h.hiddenRuns, h.contentLinks]
    rfl
  refine ⟨hd, h.hiddenRuns, h.contentLinks, fun ds hds => ?_, fun ds fences hds => ?_, fun ls c hc => ?_,
    fun n hn => (h.isPlain hn).2, fun c => Node.annotate_of_plain c fun n hn => h.isPlain hn⟩
  · cases hd.symm.trans hds
    exact hm
  · cases hd.symm.trans hds
    exact Detector.executable_nil fences
  · obtain ⟨ds, found, hds, hfound, rfl⟩ := Classification.ofTextWith_eq_ok_iff.mp hc
    cases hd.symm.trans hds
    exact ⟨hm, Classification.decide_ne_executable hfound⟩

end Runbook
