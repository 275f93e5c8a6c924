import Runbook.Plan.Draft
import Runbook.Proofs.Document.Legible
import Runbook.Proofs.Json.Excess
import Runbook.Proofs.Markup.CommentCut
import Runbook.Proofs.Report.Fenced

/-!
Files written into a document, one block for each, are read back from it as they were, whatever stands in them. The one
thing that can go wrong is a comment: JSON that is refused for its size refuses the document.
-/
namespace Runbook

open Text (isBlank splitAt)
open Markup (fences fencesFrom)
open Display (lineBody)

/-- A file that can be written into a document: a path of one word, and a content with line feeds only. -/
structure FileBlock where
  path : Text
  content : Text
  path_ne_nil : path ≠ []
  path_plain : ∀ c ∈ path, isBlank c = false ∧ c ≠ '\x60'
  content_unix : '\r' ∉ content

namespace Fields

theorem put_of_not_mem {α : Type} {key : Text} {es : Fields α} (h : key ∉ keys es) (v : α) :
    put key v es = es ++ [(key, v)] := by
  induction es with
  | nil => rfl
  | cons e es ih =>
    rw [keys, List.map_cons, List.mem_cons, not_or] at h
    rw [put, if_neg fun he => h.1 he.symm, ih h.2, List.cons_append]

end Fields

namespace FileBlock

def info (b : FileBlock) : Text := "file:" ++ b.path

def text (b : FileBlock) : Text := Display.fenced b.info b.content

/-- The blocks with a blank line between them. -/
def document (bs : List FileBlock) : Text := Text.join "\n\n" (bs.map text)

/-- What is left of a file: the line feeds at its end are not kept. -/
def entry (b : FileBlock) : Text × Text := (b.path, lineBody b.content)

variable {b : FileBlock} {bs : List FileBlock} {f : Fence} {fs : List Fence} {as : List Artifact} {c : Classification}

theorem plain_of_all {t : Text} (h : (t.all fun c => !isBlank c && c ≠ '\x60') = true) :
    ∀ c ∈ t, isBlank c = false ∧ c ≠ '\x60' := by
  simpa using h

theorem info_plain (b : FileBlock) : ∀ c ∈ b.info, isBlank c = false ∧ c ≠ '\x60' := by
  intro c hc
  rcases List.mem_append.mp hc with hc | hc
  · exact plain_of_all (t := "file:") (by decide +kernel) c hc
  · exact b.path_plain c hc

theorem document_cons (b : FileBlock) (h : bs ≠ []) :
    splitAt '\n' (document (b :: bs)) = splitAt '\n' b.text ++ [] :: splitAt '\n' (document bs) := by
  have hdoc : document (b :: bs) = b.text ++ '\n' :: '\n' :: document bs := by
    rw [document, List.map_cons, Text.join_cons (by simpa using h), List.append_assoc]
    rfl
  have hblank : splitAt '\n' ('\n' :: document bs) = [] :: splitAt '\n' (document bs) := by
    rw [Text.splitAt, if_pos rfl]
  rw [hdoc, Text.splitAt_append_cons, hblank]

/-- A fence of a document that was written for a file. -/
structure IsBlockOf (b : FileBlock) (f : Fence) : Prop where
  info : f.info = b.info
  content : f.content = lineBody b.content

/-- Blocks are read one after the other: each one starts where the one before it has ended. -/
theorem fencesFrom_document (h : bs ≠ []) (n : Nat) :
    List.Forall₂ IsBlockOf bs (fencesFrom n none (splitAt '\n' (document bs))) := by
  induction bs generalizing n with
  | nil => exact (h rfl).elim
  | cons b bs ih =>
    by_cases hne : bs = []
    · subst hne
      have hread := Display.fencesFrom_fenced b.info_plain b.content_unix n []
      rw [List.append_nil] at hread
      rw [show document [b] = Display.fenced b.info b.content from rfl, hread]
      exact .cons ⟨rfl, rfl⟩ .nil
    · have hblank : Markup.fenceOpening? [] = none := rfl
      rw [document_cons b hne, text, Display.fencesFrom_fenced b.info_plain b.content_unix, fencesFrom, hblank]
      exact .cons ⟨rfl, rfl⟩ (ih hne _)

/-! What the detectors make of the blocks -/

theorem firstWord_info (b : FileBlock) : b.info.firstWord = b.info := by
  have hplain : ∀ c ∈ b.info, (!isBlank c) = true := fun c hc => by rw [(b.info_plain c hc).1]; rfl
  have hdrop : b.info.dropWhile isBlank = b.info :=
    Text.dropWhile_run (b := []) (by simp) fun c hc => (b.info_plain c (List.mem_of_mem_head? hc)).1
  have htake := Text.takeWhile_run (r := []) hplain (by simp)
  rw [List.append_nil] at htake
  rw [Text.firstWord, hdrop, htake]

theorem lower_info (b : FileBlock) : ∃ r, b.info.lower = 'f' :: 'i' :: 'l' :: 'e' :: ':' :: r := ⟨_, rfl⟩

theorem lang_eq (h : f.info = b.info) : ∃ r, f.lang = 'f' :: 'i' :: 'l' :: 'e' :: ':' :: r := by
  rw [Fence.lang, h, firstWord_info]
  exact lower_info b

theorem filePath_eq (h : f.info = b.info) : f.filePath = some b.path := by
  obtain ⟨r, hr⟩ := lower_info b
  have hdrop : b.info.drop 5 = b.path := rfl
  have hstrip : Text.strip b.path = b.path := Text.strip_of_not_blank fun c hc => (b.path_plain c hc).1
  rw [Fence.filePath, h, firstWord_info, hdrop, hstrip, hr, if_pos ⟨rfl, b.path_ne_nil⟩]

/-- A fence that no detector takes but the one for files. -/
structure IsFileOnly (f : Fence) : Prop where
  dockerfile : Detector.isDockerfile f = false
  terraform : Detector.isTerraform f = false
  manifest : Detector.mayBeManifest f = false
  shell : Detector.shellKind? f = none
  sql : Detector.isSql f = false

/-- The content of a block does not count. -/
theorem isFileOnly_of_info (h : f.info = b.info) : IsFileOnly f := by
  obtain ⟨r, hlang⟩ := lang_eq h
  have hpath := filePath_eq h
  constructor
  case dockerfile => rw [Detector.isDockerfile, hlang]; rfl
  case terraform => rw [Detector.isTerraform, hlang]; rfl
  case manifest => simp [Detector.mayBeManifest, hpath]
  case shell => rw [Detector.shellKind?, Detector.isShell, hlang]; rfl
  case sql => rw [Detector.isSql, hlang]; rfl

theorem isFileOnly_of_mem (h : List.Forall₂ IsBlockOf bs fs) : ∀ f ∈ fs, IsFileOnly f := by
  induction h with
  | nil => simp
  | cons hf _ ih => exact List.forall_mem_cons.mpr ⟨isFileOnly_of_info hf.info, ih⟩

/-- What the detectors find in such fences. -/
def found (fs : List Fence) : List (Language × List Artifact) :=
  [(.dockerfile, []), (.terraform, []), (.kubernetes, []), (.executable, []), (.git, Detector.file fs), (.sql, [])]

theorem kubernetes_eq_nil (h : ∀ f ∈ fs, IsFileOnly f) : Detector.kubernetes fs = .ok [] := by
  refine Detector.kubernetes_eq_nil_iff.mpr fun f hf hm => ?_
  rw [(h f hf).manifest] at hm
  cases hm

theorem found_of_isFileOnly (h : ∀ f ∈ fs, IsFileOnly f) (ds : List Directive) :
    Classification.Found fs ds Detector.priority (found fs) := by
  have hdocker : Detector.dockerfile fs = [] := by
    rw [Detector.dockerfile, List.filter_eq_nil_iff.mpr fun f hf => by simp [(h f hf).dockerfile], List.map_nil]
  have hterraform : Detector.terraform fs = [] := by
    rw [Detector.terraform, List.filter_eq_nil_iff.mpr fun f hf => by simp [(h f hf).terraform], List.map_nil]
  have hexecutable : Detector.executable fs ds = [] := by
    rw [Detector.executable]
    split
    · exact List.filterMap_eq_nil_iff.mpr fun f hf => by rw [(h f hf).shell, Option.map_none]
    · rfl
  have hsql : Detector.sql fs = [] := by
    rw [Detector.sql, List.filter_eq_nil_iff.mpr fun f hf => by simp [(h f hf).sql], List.map_nil]
  refine .cons ⟨rfl, congrArg _ hdocker⟩ (.cons ⟨rfl, congrArg _ hterraform⟩ (.cons ⟨rfl, kubernetes_eq_nil h⟩ ?_))
  exact .cons ⟨rfl, congrArg _ hexecutable⟩ (.cons ⟨rfl, rfl⟩ (.cons ⟨rfl, congrArg _ hsql⟩ .nil))

/-- An artifact that holds a file. -/
structure IsFileOf (b : FileBlock) (a : Artifact) : Prop where
  kind : a.kind = .file
  location : a.location = some b.path
  content : a.content = lineBody b.content

theorem file_of_forall₂ (h : List.Forall₂ IsBlockOf bs fs) : List.Forall₂ IsFileOf bs (Detector.file fs) := by
  induction h with
  | nil => exact .nil
  | @cons b f bs fs hf _ ih =>
    have hcons : Detector.file (f :: fs) =
        { kind := .file, content := f.content, location := some b.path, line := some f.line } :: Detector.file fs := by
      rw [Detector.file, List.filterMap_cons, filePath_eq hf.info]
      rfl
    rw [hcons]
    exact .cons ⟨rfl, rfl, hf.content⟩ ih

/-! The plan for the blocks -/

/-- Steps that put each file under its path leave files with paths of their own in their order. -/
theorem foldl_put {put : Fields Text → Artifact → Fields Text}
    (hput : ∀ files a path, GitRepository.path? a = some path → put files a = Fields.put path a.content files)
    (hpaths : (bs.map path).Nodup) (h : List.Forall₂ IsFileOf bs as) (files : Fields Text)
    (hfiles : ∀ b ∈ bs, b.path ∉ Fields.keys files) : as.foldl put files = files ++ bs.map entry := by
  induction h generalizing files with
  | nil => exact (List.append_nil files).symm
  | @cons b a bs as ha _ ih =>
    obtain ⟨hb, hbs⟩ := List.forall_mem_cons.mp hfiles
    obtain ⟨hnew, hpaths⟩ := List.nodup_cons.mp hpaths
    have hpath : GitRepository.path? a = some b.path := by
      rw [GitRepository.path?, if_pos ha.kind, ha.location, Option.filter_some, if_pos (decide_eq_true b.path_ne_nil)]
    have hstep : put files a = files ++ [b.entry] := by
      rw [hput files a b.path hpath, Fields.put_of_not_mem hb, ha.content]
      rfl
    have hkeys : ∀ b' ∈ bs, b'.path ∉ Fields.keys (files ++ [b.entry]) := by
      intro b' hb' hmem
      rw [Fields.keys, List.map_append, List.mem_append] at hmem
      rcases hmem with hmem | hmem
      · exact hbs b' hb' hmem
      · have he : b'.path = b.path := List.mem_singleton.mp hmem
        exact hnew (he ▸ List.mem_map_of_mem hb')
    rw [List.foldl_cons, hstep, ih hpaths _ hkeys, List.map_cons, List.append_assoc, List.singleton_append]

theorem filesOf_eq (hpaths : (bs.map path).Nodup) (h : List.Forall₂ IsFileOf bs as) :
    GitRepository.filesOf as = bs.map entry := by
  rw [GitRepository.filesOf, foldl_put _ hpaths h [] (by simp [Fields.keys]), List.nil_append]
  intro files a path hpath
  rw [hpath]

/-- What a document of file blocks is read as, and planned as: a repository of just these files. -/
structure Restores (bs : List FileBlock) (c : Classification) : Prop where
  language : c.language = .git
  artifacts : List.Forall₂ IsFileOf bs c.artifacts
  plan : ∀ defaults, ∃ commands, Plan.draft .git c.artifacts c.metadata defaults = .ok (.git ⟨bs.map entry, commands⟩)

theorem restores_of_artifacts (hne : bs ≠ []) (hpaths : (bs.map path).Nodup) (hl : c.language = .git)
    (ha : List.Forall₂ IsFileOf bs c.artifacts) : Restores bs c := by
  refine ⟨hl, ha, fun defaults => ?_⟩
  have hfiles := filesOf_eq hpaths ha
  obtain ⟨b, bs, rfl⟩ := List.exists_cons_of_ne_nil hne
  rw [Plan.draft, GitRepository.draft, hfiles, List.map_cons]
  exact ⟨_, rfl⟩

/-- Only what stands in comments can refuse a document of file blocks. -/
theorem ofText_returns_iff (hne : bs ≠ []) : (∃ c, Classification.ofText (document bs) = .ok c) ↔
    ∀ k ∈ Comment.all (document bs), ¬ Directive.IsRefused k.body := by
  have hdirectives : (∃ ds, Directive.all (document bs) = .ok ds) ↔
      ∀ k ∈ Comment.all (document bs), ¬ Directive.IsRefused k.body := by
    rw [Directive.all, Directive.ofComments_returns_iff]
    simp only [Directive.ofComment_returns_iff]
  have hkubernetes := kubernetes_eq_nil (isFileOnly_of_mem (fencesFrom_document hne 1))
  rw [Classification.ofText_returns_iff, hdirectives]
  exact and_iff_left ⟨[], hkubernetes⟩

theorem restores_of_ofText (hne : bs ≠ []) (hpaths : (bs.map path).Nodup)
    (hc : Classification.ofText (document bs) = .ok c) : Restores bs c := by
  have hblocks : List.Forall₂ IsBlockOf bs (fences (document bs)) := fencesFrom_document hne 1
  have hfiles := file_of_forall₂ hblocks
  obtain ⟨ds, found', -, hfound, rfl⟩ := Classification.ofTextWith_eq_ok_iff.mp hc
  have hexpected := found_of_isFileOnly (isFileOnly_of_mem hblocks) ds
  have hruns := (Classification.runDetectors_eq_ok_iff.mpr hfound).symm.trans
    (Classification.runDetectors_eq_ok_iff.mpr hexpected)
  obtain rfl := Except.ok.inj hruns
  have hsome : (Detector.file (fences (document bs))).isEmpty = false := by
    rw [Bool.eq_false_iff]
    intro hempty
    rw [List.isEmpty_iff.mp hempty] at hfiles
    exact hne (List.forall₂_nil_right_iff.mp hfiles)
  refine restores_of_artifacts hne hpaths ?_ ?_
  · simp [found, Classification.decide, hsome]
  · simpa [found] using hfiles

/-- A document of file blocks is read exactly when no comment in it is refused, and then all files are restored. What
else stands in the contents, fences and manifests among it, changes nothing. -/
theorem ofText_document (hne : bs ≠ []) (hpaths : (bs.map path).Nodup) :
    ((∃ c, Classification.ofText (document bs) = .ok c) ↔
      ∀ k ∈ Comment.all (document bs), ¬ Directive.IsRefused k.body) ∧
    ∀ c, Classification.ofText (document bs) = .ok c → Restores bs c :=
  ⟨ofText_returns_iff hne, fun _ hc => restores_of_ofText hne hpaths hc⟩

/-- Contents with fences of both kinds, a manifest, directives and line feeds at the end. -/
def mixedFiles : List FileBlock := [
  { path := "README.md"
    content := "# T\n````yaml\napiVersion: v1\nkind: Pod\n````\n<!-- polyglot:executable -->\n```bash\n\n"
    path_ne_nil := by decide
    path_plain := plain_of_all (by decide +kernel)
    content_unix := by decide +kernel },
  { path := "~/file:x"
    content := "~~~sql\n```\n<!-- kyozo:\x7b\"a\": [1]\x7d --> <!--"
    path_ne_nil := by decide
    path_plain := plain_of_all (by decide +kernel)
    content_unix := by decide +kernel },
  { path := "dockerfile"
    content := []
    path_ne_nil := by decide
    path_plain := plain_of_all (by decide +kernel)
    content_unix := by decide }]

theorem ofText_document_mixedFiles : mixedFiles ≠ [] ∧ (mixedFiles.map path).Nodup ∧
    (∀ k ∈ Comment.all (document mixedFiles), ¬ Directive.IsRefused k.body) ∧
    ∃ c, Classification.ofText (document mixedFiles) = .ok c ∧ Restores mixedFiles c := by
  have hne : mixedFiles ≠ [] := List.cons_ne_nil _ _
  have hpaths : (mixedFiles.map path).Nodup := by decide +kernel
  have hok : (Classification.ofText (document mixedFiles)).isOk = true := by decide +kernel
  obtain ⟨c, hc⟩ : ∃ c, Classification.ofText (document mixedFiles) = .ok c := by
    cases h : Classification.ofText (document mixedFiles) with
    | ok c => exact ⟨c, rfl⟩
    | error e =>
      rw [h] at hok
      cases hok
  obtain ⟨hreads, hrestores⟩ := ofText_document hne hpaths
  exact ⟨hne, hpaths, hreads.mp ⟨c, hc⟩, c, hc, hrestores c hc⟩

/-- A comment whose JSON holds a numeral of one digit too many. -/
def longComment : Text := " kyozo:" ++ Json.onesMap (Numeral.digitLimit + 1)

theorem not_mem_longComment {d : Char} (hd : d ∉ (" kyozo:" : Text) ++ ['\x7b', '"', 'a', ':', '1', '\x7d']) :
    d ∉ longComment := by
  intro h
  rcases List.mem_append.mp h with h | h
  · exact hd (List.mem_append_left _ h)
  · exact hd (List.mem_append_right _ (Json.mem_onesMap h))

theorem isRefused_longComment : Directive.IsRefused longComment := by
  have hread := Json.read_onesMap (Nat.lt_succ_self Numeral.digitLimit)
  have hplain : ∀ d ∈ Json.onesMap (Numeral.digitLimit + 1), isBlank d = false :=
    fun d hd => (plain_of_all (by decide) d (Json.mem_onesMap hd)).1
  have hstrip := Text.strip_of_not_blank hplain
  have hspace : Directive.namespace? (longComment.dropWhile isBlank) =
      some (.kyozo, Json.onesMap (Numeral.digitLimit + 1)) := rfl
  refine ⟨_, .tooLong (some (Numeral.digitLimit + 1)), hspace, ?_, hstrip.symm ▸ hread, nofun⟩
  rw [hstrip]
  rfl

def longNumeral : FileBlock where
  path := "a"
  content := Directive.rawOf longComment
  path_ne_nil := by decide
  path_plain := plain_of_all (by decide +kernel)
  content_unix := by
    intro h
    rw [Directive.rawOf_eq, List.mem_append, List.mem_append] at h
    rcases h with (h | h) | h
    · exact absurd h (by decide +kernel)
    · exact not_mem_longComment (by decide +kernel) h
    · exact absurd h (by decide +kernel)

theorem ofText_refuses_longNumeral :
    ([longNumeral].map path).Nodup ∧ ¬ ∃ c, Classification.ofText (document [longNumeral]) = .ok c := by
  refine ⟨by simp, fun hread => ?_⟩
  have hbody : lineBody longNumeral.content = Directive.rawOf longComment := by
    have hend : (Directive.rawOf longComment).getLast? = some '>' := by
      rw [Directive.rawOf_eq, List.getLast?_append]
      rfl
    have hlast : ∀ d ∈ (Directive.rawOf longComment).getLast?, decide (d = '\n') = false := by
      intro d hd
      rw [hend] at hd
      rw [← Option.mem_some_iff.mp hd]
      rfl
    have hdrop := Text.dropEndWhile_run (q := []) (by simp) hlast
    rwa [List.append_nil] at hdrop
  have hdoc : document [longNumeral] = Display.fence longNumeral.content ++ "file:a\n" ++
      (Directive.rawOf longComment ++ ('\n' :: Display.fence longNumeral.content)) := by
    have hfenced : document [longNumeral] = Display.fenced longNumeral.info longNumeral.content := rfl
    have hinfo : ("file:a\n" : Text) = longNumeral.info ++ ['\n'] := rfl
    rw [hfenced, Display.fenced_eq, hbody, hinfo]
    simp
  have hstart : '<' ∉ Display.fence longNumeral.content ++ "file:a\n" := by
    rw [List.mem_append, not_or]
    exact ⟨fun h => absurd (List.eq_of_mem_replicate h) (by decide), by decide +kernel⟩
  have hend : ¬ ("-->" : Text) <:+: longComment ++ ("--" : Text) := by
    intro h
    rcases List.mem_append.mp (h.subset (show '>' ∈ ("-->" : Text) by decide +kernel)) with h | h
    · exact not_mem_longComment (by decide +kernel) h
    · exact absurd h (by decide +kernel)
  obtain ⟨k, hk, hkbody⟩ := Comment.exists_mem_all (q := '\n' :: Display.fence longNumeral.content) hstart hend
  rw [← hdoc] at hk
  refine (ofText_returns_iff (List.cons_ne_nil _ _)).mp hread k hk ?_
  rw [hkbody]
  exact isRefused_longComment

end FileBlock
end Runbook
