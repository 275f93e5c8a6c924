import Mathlib.Data.List.Perm.Basic
import Runbook.Proofs.Document.Claimed

/-!
The order in which detectors are asked. It decides which language a document has, and where the artifacts of a detector
stand among the others; what a detector finds and the record of the document do not depend on it.
-/
namespace Runbook.Classification

open Markup (fences)

variable {t : Text} {fs : List Fence} {ds : List Directive} {l : Language} {ls ls' table before after : List Language}
  {found : List (Language × List Artifact)} {as : List Artifact} {c : Classification} {g : Language → List Artifact}

/-- What the detector of a language finds; nothing where it fails. -/
def findings (fs : List Fence) (ds : List Directive) (l : Language) : List Artifact :=
  (Detector.detect l fs ds).toOption.getD []

theorem Found.eq_map (h : Found fs ds ls found) : found = ls.map fun l => (l, findings fs ds l) := by
  induction h with
  | nil => rfl
  | @cons l p ls found hp _ ih =>
    obtain ⟨rfl, hd⟩ := hp
    rw [List.map_cons, ← ih, findings, hd]
    rfl

/-- The language is that of the first detector with a finding. -/
theorem decide_map (g : Language → List Artifact) (ls : List Language) :
    decide (ls.map fun l => (l, g l)) = (ls.find? fun l => !(g l).isEmpty).getD .none := by
  have hfirst : decide (ls.map fun l => (l, g l)) =
      (((ls.map fun l => (l, g l)).find? fun p => !p.2.isEmpty).map (·.1)).getD .none := rfl
  have hsame : ((fun p : Language × List Artifact => p.1) ∘ fun l => (l, g l)) = id := rfl
  rw [hfirst, List.find?_map, Option.map_map, hsame, Option.map_id]
  rfl

theorem decide_of_first (hbefore : ∀ l' ∈ before, g l' = []) (hl : g l ≠ []) :
    decide ((before ++ l :: after).map fun l => (l, g l)) = l := by
  have hnone : (before.find? fun l => !(g l).isEmpty) = none := by simpa using hbefore
  have hsome : (!(g l).isEmpty) = true := by simpa using hl
  have hfirst : ((l :: after).find? fun l => !(g l).isEmpty) = some l := List.find?_cons_of_pos hsome
  rw [decide_map, List.find?_append, hnone, Option.none_or, hfirst]
  rfl

theorem decide_eq_none_iff (hnone : g .none = []) :
    decide (ls.map fun l => (l, g l)) = .none ↔ ls.flatMap g = [] := by
  rw [decide_map, List.flatMap_eq_nil_iff]
  cases hfirst : ls.find? fun l => !(g l).isEmpty with
  | none => exact iff_of_true rfl (by simpa using hfirst)
  | some l =>
    have hl : g l ≠ [] := by simpa using List.find?_some hfirst
    refine iff_of_false ?_ fun hall => hl (hall l (List.mem_of_find?_eq_some hfirst))
    rintro rfl
    exact hl hnone

/-- The artifacts stand on lines that go up. -/
def Ascends (as : List Artifact) : Prop :=
  ∃ lines : List Int, as.map (·.line) = lines.map some ∧ lines.Pairwise (· < ·)

theorem ascends_of_detect (hfs : fs.Pairwise (·.line < ·.line)) (h : Detector.detect l fs ds = .ok as) : Ascends as := by
  obtain ⟨gs, hsub, -, hlines⟩ := Detector.exists_isChosen h
  refine ⟨gs.map fun f => (f.line : Int), ?_, List.pairwise_map.mpr ((hfs.sublist hsub).imp Int.ofNat_lt.mpr)⟩
  rw [hlines, List.map_map]
  rfl

/-- A document is put together from what each detector of a table finds. -/
structure IsOrdered (table : List Language) (g : Language → List Artifact) (c : Classification) : Prop where
  artifacts : c.artifacts = table.flatMap g
  language_none : c.language = .none ↔ c.artifacts = []
  language_first : ∀ before l after, table = before ++ l :: after → (∀ l' ∈ before, g l' = []) → g l ≠ [] → c.language = l

theorem isOrdered_of_found (hnone : g .none = []) (hfound : found = table.map fun l => (l, g l)) (metadata : Fields Value) :
    IsOrdered table g ⟨decide found, found.flatMap (·.2), metadata⟩ := by
  subst hfound
  have hartifacts : (table.map fun l => (l, g l)).flatMap (·.2) = table.flatMap g := by rw [List.flatMap_map]
  refine ⟨hartifacts, ?_, ?_⟩
  · rw [hartifacts]
    exact decide_eq_none_iff hnone
  · rintro before l after rfl hbefore hl
    exact decide_of_first hbefore hl

/-- Whatever the table, a document has the language of the first detector with a finding, and all findings in the order of
the table, each with lines that go up. Asked in another order, the same detectors find the same; and no table changes the
record. -/
theorem ofTextWith_order (hc : ofTextWith table t = .ok c) : ∃ ds g, Directive.all t = .ok ds ∧
    (∀ l ∈ table, Detector.detect l (fences t) ds = .ok (g l) ∧ Ascends (g l)) ∧ IsOrdered table g c ∧
    (∀ table' c', ofTextWith table' t = .ok c' → c'.metadata = c.metadata) ∧
    ∀ table', table'.Perm table → ∃ c', ofTextWith table' t = .ok c' ∧ IsOrdered table' g c' ∧
      c'.artifacts.Perm c.artifacts := by
  obtain ⟨ds, found, hds, hfound, rfl⟩ := ofTextWith_eq_ok_iff.mp hc
  have hlines : (fences t).Pairwise (·.line < ·.line) := (Markup.pairwise_fencesFrom (by simp)).1
  have hordered := isOrdered_of_found (g := findings (fences t) ds) rfl hfound.eq_map
    (metadataOf ds (HiddenRun.all t) (ContentLink.all t))
  refine ⟨ds, findings (fences t) ds, hds, fun l hl => ?_, hordered, ?_, ?_⟩
  · obtain ⟨as, hdetect⟩ := exists_found_iff.mp ⟨found, hfound⟩ l hl
    have has : findings (fences t) ds l = as := by
      rw [findings, hdetect]
      rfl
    rw [has]
    exact ⟨hdetect, ascends_of_detect hlines hdetect⟩
  · intro table' c' hc'
    obtain ⟨ds', found', hds', -, rfl⟩ := ofTextWith_eq_ok_iff.mp hc'
    cases hds.symm.trans hds'
    rfl
  · intro table' hperm
    have hdetects : ∀ l ∈ table', ∃ as, Detector.detect l (fences t) ds = .ok as :=
      fun l hl => exists_found_iff.mp ⟨found, hfound⟩ l (hperm.subset hl)
    obtain ⟨found', hfound'⟩ := exists_found_iff.mpr hdetects
    have hordered' := isOrdered_of_found (g := findings (fences t) ds) rfl hfound'.eq_map
      (metadataOf ds (HiddenRun.all t) (ContentLink.all t))
    refine ⟨_, ofTextWith_eq_ok_iff.mpr ⟨ds, found', hds, hfound', rfl⟩, hordered', ?_⟩
    rw [hordered'.artifacts, hordered.artifacts]
    exact hperm.flatMap_right _

/-- Two statements around a block that builds an image, and a comment for the record. -/
def twoStatements : Text :=
  "<!-- polyglot:env A=1 -->\n```sql\nSELECT 1;\n```\n```dockerfile\nFROM a\n```\n```sql\nSELECT 2;\n```\n"

theorem ofTextWith_order_twoStatements : ∃ c c',
    ofTextWith [.terraform, .sql, .dockerfile] twoStatements = .ok c ∧
    ofTextWith [.dockerfile, .sql, .terraform] twoStatements = .ok c' ∧
    (c.language, c.artifacts.map (·.line)) = (.sql, [some 2, some 8, some 5]) ∧ c'.language = .dockerfile ∧
    c'.metadata = c.metadata ∧ c'.artifacts.Perm c.artifacts := by
  have hread : (ofTextWith [.terraform, .sql, .dockerfile] twoStatements).toOption.map
      (fun c => (c.language, c.artifacts.map (·.line))) = some (.sql, [some 2, some 8, some 5]) := by
    decide +kernel
  have hread' : (ofTextWith [.dockerfile, .sql, .terraform] twoStatements).toOption.map (·.language) =
      some .dockerfile := by
    decide +kernel
  cases hc : ofTextWith [.terraform, .sql, .dockerfile] twoStatements with
  | error e =>
    rw [hc] at hread
    cases hread
  | ok c =>
    obtain ⟨ds, g, -, -, -, hrecord, hturned⟩ := ofTextWith_order hc
    obtain ⟨c', hc', -, hsame⟩ := hturned [.dockerfile, .sql, .terraform] (by decide)
    rw [hc] at hread
    rw [hc'] at hread'
    exact ⟨c, c', rfl, hc', Option.some.inj hread, Option.some.inj hread', hrecord _ c' hc', hsame⟩

end Runbook.Classification
