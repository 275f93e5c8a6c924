import Mathlib.Data.List.Nodup
import Mathlib.Data.List.Pairwise
import Runbook.Proofs.Text.Search
import Runbook.Proofs.Document.Detection
import Runbook.Document.Annotation

/-!
Which detectors take a block. The tag and the path of a block belong to one detector at most, so only a block without
either can be taken twice: as a manifest, and as a script.
-/
namespace Runbook

open Markup (OpenBlock fences fencesFrom)

variable {t : Text} {f g : Fence} {fs : List Fence} {ds : List Directive} {l l' : Language} {ls : List Language}
  {as : List Artifact} {c : Classification} {n : Nat} {found : List (Language × List Artifact)}
  {p q : Language × List Artifact}

/-! Blocks by their lines -/

/-- An open block comes before everything that is still to be read. -/
theorem Markup.pairwise_fencesFrom {o : Option OpenBlock} {ls : List Text} (h : ∀ b ∈ o, b.line < n) :
    (fencesFrom n o ls).Pairwise (·.line < ·.line) ∧ ∀ f ∈ fencesFrom n o ls, o.elim n (·.line) ≤ f.line := by
  induction ls generalizing n o with
  | nil =>
    cases o with
    | none => simp [fencesFrom]
    | some b => simp [fencesFrom, OpenBlock.finish]
  | cons l ls ih =>
    cases o with
    | some b =>
      have hb : b.line < n := h b rfl
      rw [fencesFrom]
      split
      · obtain ⟨hrest, hlater⟩ := ih (n := n + 1) (o := none) (by simp)
        have hafter : ∀ f ∈ fencesFrom (n + 1) none ls, b.line < f.line := by
          intro f hf
          have := hlater f hf
          simp only [Option.elim_none] at this
          omega
        refine ⟨List.pairwise_cons.mpr ⟨hafter, hrest⟩, fun f hf => ?_⟩
        rcases List.mem_cons.mp hf with rfl | hf
        · exact Nat.le_refl _
        · exact (hafter f hf).le
      · apply ih
        rintro - ⟨⟩
        exact Nat.lt_succ_of_lt hb
    | none =>
      have hskip : (fencesFrom (n + 1) none ls).Pairwise (·.line < ·.line) ∧
          ∀ f ∈ fencesFrom (n + 1) none ls, n ≤ f.line := by
        obtain ⟨hrest, hlater⟩ := ih (n := n + 1) (o := none) (by simp)
        refine ⟨hrest, fun f hf => ?_⟩
        have := hlater f hf
        simp only [Option.elim_none] at this
        omega
      rw [fencesFrom]
      split
      · split
        · exact hskip
        · apply ih
          rintro - ⟨⟩
          exact Nat.lt_succ_self n
      · exact hskip

/-- No two blocks open on one line. -/
theorem Markup.nodup_lines (t : Text) : ((fences t).map (·.line)).Nodup := by
  have hlines : (fences t).Pairwise (·.line < ·.line) := (pairwise_fencesFrom (by simp)).1
  rw [List.Nodup, List.pairwise_map]
  exact hlines.imp fun hlt => hlt.ne

theorem filter_eq_singleton {α : Type} [DecidableEq α] {k : α → Bool} {x : α} {xs : List α} (h : xs.Nodup)
    (hx : x ∈ xs) (hk : ∀ y ∈ xs, k y = true ↔ y = x) : xs.filter k = [x] := by
  have hsame : xs.filter k = xs.filter (· = x) := by
    apply List.filter_congr
    intro y hy
    rw [Bool.eq_iff_iff, hk y hy, decide_eq_true_iff]
  rw [hsame, List.filter_eq, List.count_eq_one_of_mem h hx]
  rfl

/-- The line of a block leads back to it and to no other. -/
theorem Fence.filter_line (h : (fs.map (·.line)).Nodup) (hf : f ∈ fs) :
    (fs.filter fun g => some (f.line : Int) = some (g.line : Int)) = [f] := by
  apply filter_eq_singleton (h.of_map _) hf
  intro g hg
  rw [decide_eq_true_iff, Option.some_inj, Int.natCast_inj]
  constructor
  · intro hline
    exact List.inj_on_of_nodup_map h hg hf hline.symm
  · rintro rfl
    rfl

/-- A path is found in a tag of its own. -/
theorem Fence.lang_of_filePath (h : f.filePath.isSome = true) : ∃ r, f.lang = 'f' :: 'i' :: 'l' :: 'e' :: ':' :: r := by
  unfold filePath at h
  dsimp only at h
  split at h
  · rename_i hfile
    obtain ⟨r, hr⟩ := Text.startsWith_iff.mp hfile.1
    exact ⟨r, hr.symm⟩
  · cases h

/-! What each detector takes -/

namespace Detector

/-- The detector of a language makes an artifact of a block. -/
inductive IsTaken (ds : List Directive) (f : Fence) : Language → Prop
  | dockerfile (h : isDockerfile f = true) : IsTaken ds f .dockerfile
  | terraform (h : isTerraform f = true) : IsTaken ds f .terraform
  | manifest {kind : Text} (h : mayBeManifest f = true) (hkind : Manifest.kind? f.content = .ok (some kind)) :
    IsTaken ds f .kubernetes
  | shell (hd : ds.any declaresExecutable = true) (h : isShell f = true) : IsTaken ds f .executable
  | script (hd : ds.any declaresExecutable = true) (hlang : f.lang = []) (h : f.content.startsWith "#!" = true) :
    IsTaken ds f .executable
  | file (h : f.filePath.isSome = true) : IsTaken ds f .git
  | sql (h : isSql f = true) : IsTaken ds f .sql

theorem shellKind?_isSome_iff :
    (shellKind? f).isSome = true ↔ isShell f = true ∨ f.lang = [] ∧ f.content.startsWith "#!" = true := by
  rw [shellKind?]
  split
  · rename_i h
    exact ⟨fun _ => .inl h, fun _ => rfl⟩
  · rename_i h
    rw [or_iff_right h]
    split
    · rename_i h'
      exact ⟨fun _ => h', fun _ => rfl⟩
    · rename_i h'
      exact ⟨fun hnone => (by cases hnone), fun h'' => (h' h'').elim⟩

theorem isTaken_executable_iff :
    IsTaken ds f .executable ↔ ds.any declaresExecutable = true ∧ (shellKind? f).isSome = true := by
  rw [shellKind?_isSome_iff]
  constructor
  · rintro (_ | _)
    case shell hd h => exact ⟨hd, .inl h⟩
    case script hd hlang h => exact ⟨hd, .inr ⟨hlang, h⟩⟩
  · rintro ⟨hd, h | ⟨hlang, h⟩⟩
    · exact .shell hd h
    · exact .script hd hlang h

/-- Some of the blocks in their order, and the line of each. -/
structure IsChosen (fs : List Fence) (P : Fence → Prop) (as : List Artifact) (gs : List Fence) : Prop where
  sublist : gs.Sublist fs
  mem_iff : ∀ f ∈ fs, f ∈ gs ↔ P f
  lines : as.map (·.line) = gs.map fun f => some (f.line : Int)

theorem isChosen_nil {P : Fence → Prop} (h : ∀ f ∈ fs, ¬ P f) : IsChosen fs P [] [] where
  sublist := List.nil_sublist _
  mem_iff := fun f hf => ⟨fun hnil => (by cases hnil), fun hP => (h f hf hP).elim⟩
  lines := rfl

theorem isChosen_filterMap {α : Type} {P : Fence → Prop} (k : Fence → Option α) (made : Fence → α → Artifact)
    (hline : ∀ f x, (made f x).line = some (f.line : Int)) (h : ∀ f, (k f).isSome = true ↔ P f) :
    IsChosen fs P (fs.filterMap fun f => (k f).map (made f)) (fs.filter fun f => (k f).isSome) where
  sublist := List.filter_sublist
  mem_iff := fun f hf => by rw [List.mem_filter, and_iff_right hf, h f]
  lines := by
    induction fs with
    | nil => rfl
    | cons f fs ih =>
      rw [List.filterMap_cons, List.filter_cons]
      cases hk : k f with
      | none => exact ih
      | some x => exact congrArg₂ (· :: ·) (hline f x) ih

theorem isChosen_filter {P : Fence → Prop} (k : Fence → Bool) (made : Fence → Artifact)
    (hline : ∀ f, (made f).line = some (f.line : Int)) (h : ∀ f, k f = true ↔ P f) :
    IsChosen fs P ((fs.filter k).map made) (fs.filter k) where
  sublist := List.filter_sublist
  mem_iff := fun f hf => by rw [List.mem_filter, and_iff_right hf, h f]
  lines := by
    rw [List.map_map]
    exact List.map_congr_left fun f _ => hline f

theorem IsChosen.skip {P : Fence → Prop} {gs : List Fence} (h : IsChosen fs P as gs) (hf : ¬ P f) :
    IsChosen (f :: fs) P as gs where
  sublist := h.sublist.cons f
  mem_iff := by
    have hgs : f ∉ gs := fun hfg => hf ((h.mem_iff f (h.sublist.subset hfg)).mp hfg)
    exact List.forall_mem_cons.mpr ⟨iff_of_false hgs hf, h.mem_iff⟩
  lines := h.lines

theorem IsChosen.push {P : Fence → Prop} {gs : List Fence} {a : Artifact} (h : IsChosen fs P as gs) (hf : P f)
    (hline : a.line = some (f.line : Int)) : IsChosen (f :: fs) P (a :: as) (f :: gs) where
  sublist := h.sublist.cons_cons f
  mem_iff := by
    refine List.forall_mem_cons.mpr ⟨iff_of_true List.mem_cons_self hf, fun g hg => ?_⟩
    rw [List.mem_cons, h.mem_iff g hg]
    refine ⟨?_, .inr⟩
    rintro (rfl | hP)
    · exact hf
    · exact hP
  lines := congrArg₂ (· :: ·) hline h.lines

theorem isChosen_kubernetes (h : kubernetes fs = .ok as) :
    ∃ gs, IsChosen fs (fun f => IsTaken ds f .kubernetes) as gs := by
  induction fs generalizing as with
  | nil =>
    cases h
    exact ⟨[], isChosen_nil (by simp)⟩
  | cons f fs ih =>
    rw [kubernetes] at h
    split at h
    · rename_i hm
      obtain ⟨kind, hkind, h⟩ := bind_eq_ok_iff.mp h
      cases kind with
      | none =>
        obtain ⟨gs, hgs⟩ := ih h
        refine ⟨gs, hgs.skip ?_⟩
        intro hf
        cases hf with
        | manifest _ hkind' => cases hkind.symm.trans hkind'
      | some kind =>
        obtain ⟨rest, hrest, h⟩ := bind_eq_ok_iff.mp h
        cases h
        obtain ⟨gs, hgs⟩ := ih hrest
        exact ⟨f :: gs, hgs.push (.manifest hm hkind) rfl⟩
    · rename_i hm
      obtain ⟨gs, hgs⟩ := ih h
      refine ⟨gs, hgs.skip ?_⟩
      intro hf
      cases hf with
      | manifest hm' _ => exact hm hm'

/-- Each detector makes one artifact of each block that it takes, with the block's line. -/
theorem exists_isChosen (h : detect l fs ds = .ok as) : ∃ gs, IsChosen fs (fun f => IsTaken ds f l) as gs := by
  cases l with
  | dockerfile =>
    cases h
    exact ⟨_, isChosen_filter isDockerfile _ (fun _ => rfl) fun f => ⟨.dockerfile, by rintro ⟨⟩; assumption⟩⟩
  | terraform =>
    cases h
    exact ⟨_, isChosen_filter isTerraform _ (fun _ => rfl) fun f => ⟨.terraform, by rintro ⟨⟩; assumption⟩⟩
  | kubernetes => exact isChosen_kubernetes h
  | executable =>
    cases h
    unfold executable
    split
    · rename_i hd
      refine ⟨_, isChosen_filterMap shellKind? _ (fun _ _ => rfl) fun f => ?_⟩
      rw [isTaken_executable_iff, and_iff_right hd]
    · rename_i hd
      refine ⟨[], isChosen_nil fun f _ hf => ?_⟩
      exact hd (isTaken_executable_iff.mp hf).1
  | git =>
    cases h
    exact ⟨_, isChosen_filterMap Fence.filePath _ (fun _ _ => rfl) fun f => ⟨.file, by rintro ⟨⟩; assumption⟩⟩
  | sql =>
    cases h
    exact ⟨_, isChosen_filter isSql _ (fun _ => rfl) fun f => ⟨.sql, by rintro ⟨⟩; assumption⟩⟩
  | none =>
    cases h
    refine ⟨[], isChosen_nil fun f _ hf => ?_⟩
    cases hf

/-! What no two detectors take -/

/-- The detector that the info of a block names. -/
def owner? (f : Fence) : Option Language :=
  if isDockerfile f then some .dockerfile
  else if isTerraform f then some .terraform
  else if isShell f then some .executable
  else if isSql f then some .sql
  else if f.filePath.isSome then some .git
  else none

/-- A block without a tag that is a manifest and, by its first line, a script, in a document that lets scripts run. -/
structure IsTakenTwice (ds : List Directive) (f : Fence) : Prop where
  declared : ds.any declaresExecutable = true
  untagged : f.lang = []
  script : f.content.startsWith "#!" = true
  yaml : mayBeManifest f = true
  manifest : ∃ kind, Manifest.kind? f.content = .ok (some kind)

theorem owner?_of_mayBeManifest (h : mayBeManifest f = true) : owner? f = none := by
  simp only [mayBeManifest, Bool.and_eq_true, Bool.not_eq_true', Bool.or_eq_false_iff, Option.isNone_iff_eq_none] at h
  obtain ⟨⟨⟨⟨⟨⟨hd, ht⟩, hs⟩, hq⟩, hp⟩, -⟩, -⟩ := h
  simp [owner?, hd, ht, hs, hq, hp]

theorem owner?_of_untagged (h : f.lang = []) : owner? f = none := by
  have hpath : f.filePath.isSome = false := by
    rw [Bool.eq_false_iff]
    intro hp
    obtain ⟨r, hr⟩ := Fence.lang_of_filePath hp
    rw [h] at hr
    cases hr
  rw [owner?, isDockerfile, isTerraform, isShell, isSql, h, hpath]
  rfl

/-- A block that is taken is taken by its owner, if it has one. -/
theorem IsTaken.owner (h : IsTaken ds f l) :
    owner? f = some l ∨ owner? f = none ∧ (l = .kubernetes ∨ l = .executable) := by
  cases h with
  | dockerfile h => exact .inl (if_pos h)
  | terraform h =>
    left
    simp only [isTerraform, Bool.or_eq_true, decide_eq_true_eq] at h
    rcases h with h | h <;> rw [owner?, isDockerfile, isTerraform, h] <;> rfl
  | manifest h _ => exact .inr ⟨owner?_of_mayBeManifest h, .inl rfl⟩
  | shell _ h =>
    left
    simp only [isShell, Bool.or_eq_true, decide_eq_true_eq] at h
    rcases h with (h | h) | h <;> rw [owner?, isDockerfile, isTerraform, isShell, h] <;> rfl
  | script _ h _ => exact .inr ⟨owner?_of_untagged h, .inr rfl⟩
  | file h =>
    left
    obtain ⟨r, hr⟩ := Fence.lang_of_filePath h
    rw [owner?, isDockerfile, isTerraform, isShell, isSql, hr, h]
    rfl
  | sql h =>
    left
    have h : f.lang = "sql" := of_decide_eq_true h
    rw [owner?, isDockerfile, isTerraform, isShell, isSql, h]
    rfl

theorem isTakenTwice_of_isTaken (hm : IsTaken ds f .kubernetes) (hs : IsTaken ds f .executable) : IsTakenTwice ds f := by
  cases hm with
  | manifest hyaml hkind =>
    cases hs with
    | shell hd h => simp [mayBeManifest, h] at hyaml
    | script hd hlang h => exact ⟨hd, hlang, h, hyaml, _, hkind⟩

theorem IsTaken.eq_or_twice (h : IsTaken ds f l) (h' : IsTaken ds f l') : l = l' ∨ IsTakenTwice ds f := by
  rcases h.owner with ho | ⟨ho, hl⟩ <;> rcases h'.owner with ho' | ⟨ho', hl'⟩
  · exact .inl (Option.some.inj (ho.symm.trans ho'))
  · cases ho.symm.trans ho'
  · cases ho.symm.trans ho'
  · rcases hl with rfl | rfl <;> rcases hl' with rfl | rfl
    · exact .inl rfl
    · exact .inr (isTakenTwice_of_isTaken h h')
    · exact .inr (isTakenTwice_of_isTaken h' h)
    · exact .inl rfl

theorem IsTakenTwice.isTaken (h : IsTakenTwice ds f) : IsTaken ds f .kubernetes ∧ IsTaken ds f .executable := by
  obtain ⟨kind, hkind⟩ := h.manifest
  exact ⟨.manifest h.yaml hkind, .script h.declared h.untagged h.script⟩

end Detector

/-! The artifacts of a document -/

namespace Classification

open Detector (IsTaken IsTakenTwice)

theorem Found.mem_lines_iff (h : Found fs ds Detector.priority found) (hp : p ∈ found) {x : Option Int} :
    x ∈ p.2.map (·.line) ↔ ∃ f ∈ fs, IsTaken ds f p.1 ∧ x = some (f.line : Int) := by
  obtain ⟨gs, hsub, hmem, hlines⟩ := Detector.exists_isChosen (h.detect hp).2
  rw [hlines, List.mem_map]
  constructor
  · rintro ⟨f, hf, rfl⟩
    have hfs := hsub.subset hf
    exact ⟨f, hfs, (hmem f hfs).mp hf, rfl⟩
  · rintro ⟨f, hfs, hf, rfl⟩
    exact ⟨f, (hmem f hfs).mpr hf, rfl⟩

theorem Found.nodup_lines (h : Found fs ds Detector.priority found) (hfs : (fs.map (·.line)).Nodup) (hp : p ∈ found) :
    (p.2.map (·.line)).Nodup := by
  obtain ⟨gs, hsub, -, hlines⟩ := Detector.exists_isChosen (h.detect hp).2
  have hgs : (gs.map (·.line)).Nodup := hfs.sublist (hsub.map _)
  have hcast := hgs.map (f := fun k : Nat => some (k : Int)) fun a b heq => Int.ofNat.inj (Option.some.inj heq)
  rw [List.map_map] at hcast
  rw [hlines]
  exact hcast

/-- Two detectors meet only in a block that is taken twice. -/
theorem Found.disjoint (h : Found fs ds Detector.priority found) (hfs : (fs.map (·.line)).Nodup)
    (honce : ∀ f ∈ fs, ¬ IsTakenTwice ds f) (hp : p ∈ found) (hq : q ∈ found) (hpq : p.1 ≠ q.1) :
    List.Disjoint (p.2.map (·.line)) (q.2.map (·.line)) := by
  intro x hx hx'
  obtain ⟨f, hf, htaken, rfl⟩ := (h.mem_lines_iff hp).mp hx
  obtain ⟨g, hg, htaken', heq⟩ := (h.mem_lines_iff hq).mp hx'
  have hline : f.line = g.line := Int.ofNat.inj (Option.some.inj heq)
  obtain rfl := List.inj_on_of_nodup_map hfs hf hg hline
  rcases htaken.eq_or_twice htaken' with hsame | htwice
  · exact hpq hsame
  · exact honce f hf htwice

theorem Found.map_fst (h : Found fs ds ls found) : found.map (·.1) = ls := by
  induction h with
  | nil => rfl
  | cons hp _ ih => rw [List.map_cons, hp.1, ih]

theorem Found.pairwise_ne (h : Found fs ds Detector.priority found) : found.Pairwise (·.1 ≠ ·.1) := by
  have hdistinct : (found.map (·.1)).Nodup := by
    rw [h.map_fst]
    decide
  exact List.pairwise_map.mp hdistinct

/-- The lines of all artifacts are distinct exactly when no block is taken twice. -/
theorem Found.nodup_iff (h : Found fs ds Detector.priority found) (hfs : (fs.map (·.line)).Nodup) :
    ((found.flatMap (·.2)).map (·.line)).Nodup ↔ ∀ f ∈ fs, ¬ IsTakenTwice ds f := by
  rw [List.map_flatMap, List.nodup_flatMap]
  constructor
  · rintro ⟨-, hdisjoint⟩ f hf htwice
    obtain ⟨as, has⟩ := h.exists_of_mem (l := .kubernetes) (by decide)
    obtain ⟨as', has'⟩ := h.exists_of_mem (l := .executable) (by decide)
    have hline := (h.mem_lines_iff has).mpr ⟨f, hf, htwice.isTaken.1, rfl⟩
    have hline' := (h.mem_lines_iff has').mpr ⟨f, hf, htwice.isTaken.2, rfl⟩
    have hne : ((Language.kubernetes, as) : Language × List Artifact) ≠ (.executable, as') := by
      intro heq
      cases (Prod.mk.inj heq).1
    have : Std.Symm (Function.onFun List.Disjoint fun p : Language × List Artifact => p.2.map (·.line)) :=
      ⟨fun _ _ hd _ hx hx' => hd hx' hx⟩
    have hapart := hdisjoint.forall has has' hne
    exact hapart hline hline'
  · intro honce
    refine ⟨fun p hp => h.nodup_lines hfs hp, ?_⟩
    apply h.pairwise_ne.imp_of_mem
    intro p q hp hq hpq
    exact h.disjoint hfs honce hp hq hpq

/-- Where lines are distinct, the line of an artifact leads to it. -/
theorem artifactAt_of_nodup {a : Artifact} (h : (as.map (·.line)).Nodup) (ha : a ∈ as) (hline : a.line.isSome = true) :
    Node.artifactAt as a.line = some a := by
  obtain ⟨k, hk⟩ := Option.isSome_iff_exists.mp hline
  have hone : as.filter (·.line = some k) = [a] := by
    apply filter_eq_singleton (h.of_map _) ha
    intro b hb
    rw [decide_eq_true_iff, ← hk]
    constructor
    · intro heq
      exact List.inj_on_of_nodup_map h hb ha heq
    · rintro rfl
      rfl
  rw [Node.artifactAt, hk, Option.bind_some, hone]
  rfl

/-- Every artifact has the line of one block. No two have the same one, and each is found by its line, unless the document
lets scripts run and a block of it without a tag is both a script and a manifest. -/
theorem lines_of_ofText (hc : ofText t = .ok c) : ∃ ds, Directive.all t = .ok ds ∧
    (∀ a ∈ c.artifacts, ∃ f, (fences t).filter (fun f => a.line = some (f.line : Int)) = [f]) ∧
    ((c.artifacts.map (·.line)).Nodup ↔ ∀ f ∈ fences t, ¬ IsTakenTwice ds f) ∧
    ((c.artifacts.map (·.line)).Nodup → ∀ a ∈ c.artifacts, Node.artifactAt c.artifacts a.line = some a) := by
  obtain ⟨ds, found, hds, hfound, rfl⟩ := ofTextWith_eq_ok_iff.mp hc
  have hfs := Markup.nodup_lines t
  have hblock : ∀ a ∈ found.flatMap (·.2), ∃ f ∈ fences t, a.line = some (f.line : Int) := by
    intro a ha
    obtain ⟨p, hp, ha⟩ := List.mem_flatMap.mp ha
    obtain ⟨f, hf, -, hline⟩ := (hfound.mem_lines_iff hp).mp (List.mem_map_of_mem ha)
    exact ⟨f, hf, hline⟩
  refine ⟨ds, hds, ?_, hfound.nodup_iff hfs, ?_⟩
  · intro a ha
    obtain ⟨f, hf, hline⟩ := hblock a ha
    refine ⟨f, ?_⟩
    rw [hline]
    exact Fence.filter_line hfs hf
  · intro hdistinct a ha
    obtain ⟨f, -, hline⟩ := hblock a ha
    apply artifactAt_of_nodup hdistinct ha
    rw [hline]
    rfl

/-- A manifest, and a block of shell that is to be run. -/
def manifestAndShell : Text :=
  "```yaml\napiVersion: v1\nkind: Pod\n```\n<!-- polyglot:executable -->\n```sh\nkubectl get pods\n```\n"

theorem lines_of_ofText_manifestAndShell : ∃ c ds, ofText manifestAndShell = .ok c ∧
    Directive.all manifestAndShell = .ok ds ∧ (c.artifacts.map (·.line)) = [some 1, some 6] ∧
    (∀ a ∈ c.artifacts, ∃ f, (fences manifestAndShell).filter (fun f => a.line = some (f.line : Int)) = [f]) ∧
    (∀ f ∈ fences manifestAndShell, ¬ IsTakenTwice ds f) ∧
    ∀ a ∈ c.artifacts, Node.artifactAt c.artifacts a.line = some a := by
  have hread : (ofText manifestAndShell).toOption.map (fun c => c.artifacts.map (·.line)) = some [some 1, some 6] := by
    decide +kernel
  cases hc : ofText manifestAndShell with
  | error e =>
    rw [hc] at hread
    cases hread
  | ok c =>
    rw [hc] at hread
    have hlines : c.artifacts.map (·.line) = [some 1, some 6] := Option.some.inj hread
    have hdistinct : (c.artifacts.map (·.line)).Nodup := by
      rw [hlines]
      decide
    obtain ⟨ds, hds, hblocks, honce, hfound⟩ := lines_of_ofText hc
    exact ⟨c, ds, rfl, hds, hlines, hblocks, honce.mp hdistinct, hfound hdistinct⟩

/-- A script whose comment line is followed by a manifest. -/
def manifestScript : Text := "<!-- polyglot:executable -->\n```\n#!/bin/sh\napiVersion: v1\nkind: Pod\n```\n"

theorem not_nodup_lines_manifestScript : ∃ c, ofText manifestScript = .ok c ∧
    c.artifacts.map (fun a => (a.kind, a.line)) = [(.kubernetes, some 2), (.executable, some 2)] ∧
    ¬ (c.artifacts.map (·.line)).Nodup := by
  have hread : (ofText manifestScript).toOption.map (fun c => c.artifacts.map fun a => (a.kind, a.line)) =
      some [(.kubernetes, some 2), (.executable, some 2)] := by
    decide +kernel
  cases hc : ofText manifestScript with
  | error e =>
    rw [hc] at hread
    cases hread
  | ok c =>
    rw [hc] at hread
    have hboth := Option.some.inj hread
    refine ⟨c, rfl, hboth, ?_⟩
    have hlines : c.artifacts.map (·.line) = [some 2, some 2] := by
      have hseconds := congrArg (List.map Prod.snd) hboth
      rwa [List.map_map] at hseconds
    rw [hlines]
    decide

end Classification
end Runbook
