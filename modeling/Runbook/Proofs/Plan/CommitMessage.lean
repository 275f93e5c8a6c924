import Mathlib.Data.Bool.AllAny
import Runbook.Proofs.Text.Words
import Runbook.Proofs.Document.CommentNode
import Runbook.Proofs.Document.Sanitized
import Runbook.Proofs.Plan.Single

/-!
A commit message on its way from a comment into a command. It is quoted in the comment, read from there as a parameter, and
quoted once more for the shell; whatever stands in it, it stays one word.
-/
namespace Runbook

open Text (isBlank splitAt)
open Markup (endsBlock fenceOpening? fences fencesFrom)

variable {t m b r body : Text} {c : Char} {line : Int} {artifacts : List Artifact} {metadata : Fields Value}
  {defaults : PlanDefaults}

/-! The comment -/

namespace Directive

def messageKey : Text := "commit_message"

/-- The text of the comment that sets a message. -/
def messageBody (m : Text) : Text := " polyglot:git commit_message=" ++ Words.quote m ++ " "

theorem isBody_messageBody (h : Comment.IsBody m) : Comment.IsBody (messageBody m) := by
  intro hend
  have hblank : ∀ c ∈ ("-->" : Text), c ∉ (" " : Text) := List.all_iff_forall_prop.mp (by decide)
  have hhead : ∀ c ∈ ("-->" : Text), c ∉ (" polyglot:git commit_message=" : Text) := List.all_iff_forall_prop.mp (by decide)
  have hquotes : ∀ c ∈ ("-->" : Text), c ≠ '\x27' ∧ c ≠ '"' := List.all_iff_forall_prop.mp (by decide)
  delta messageBody at hend
  exact h (Words.infix_of_quote hquotes (Text.infix_of_append_left (Text.infix_of_append_right hend hblank) hhead))

theorem param?_message (m : Text) : param? (messageKey ++ '=' :: m) = some (messageKey, .text m) := by
  rw [param?, Text.cut_append (by decide)]
  rfl

theorem paramsOf_message (m : Text) : paramsOf (" commit_message=" ++ Words.quote m) = [(messageKey, .text m)] := by
  have hplain : ∀ c ∈ messageKey ++ ['='], Words.isPlain c = true := List.all_iff_forall_prop.mp (by decide)
  have hwords : Words.split (" commit_message=" ++ Words.quote m) = .ok [messageKey ++ ['='] ++ m] :=
    Words.splitFrom_append_quote hplain (by decide) m []
  rw [paramsOf, hwords]
  dsimp only
  rw [List.append_assoc, List.singleton_append, List.filterMap_cons, param?_message]
  rfl

/-- A name before a blank is read as a directive without a value. -/
theorem ofComment_eq {name r t : Text} (hn : ∀ c ∈ name, isNameChar c = true) (hne : name ≠ [])
    (ht : Text.strip r = name ++ ' ' :: t) (hbody : body.dropWhile isBlank = Namespace.polyglot.name ++ ":" ++ r) (line : Int) :
    ofComment body line = .ok (some ⟨.polyglot, name, none, paramsOf (' ' :: t), rawOf body, line⟩) := by
  have hend : ∀ c ∈ (' ' :: t).head?, isNameChar c = false := by
    rintro c ⟨⟩
    decide
  have hpart : valuePart (' ' :: t) = (none, ' ' :: t) := rfl
  have hempty : name.isEmpty = false := by simpa using hne
  rw [ofComment, namespace?_eq_some_iff.mpr hbody]
  dsimp only
  rw [if_neg (fun h => by cases h.1), ht, Text.takeWhile_run hn hend, Text.dropWhile_run hn hend, hpart, hempty]
  rfl

theorem messageText_eq (q : Text) : ("git commit_message=" : Text) ++ q = "git" ++ ' ' :: (messageKey ++ '=' :: q) := rfl

/-- What is read of the comment. -/
def settingMessage (m : Text) (line : Int) : Directive :=
  ⟨.polyglot, "git", none, [(messageKey, .text m)], rawOf (messageBody m), line⟩

theorem ofComment_messageBody (m : Text) (line : Int) :
    ofComment (messageBody m) line = .ok (some (settingMessage m line)) := by
  have hlast : ∀ c ∈ (("git commit_message=" : Text) ++ Words.quote m).getLast?, isBlank c = false := by
    rw [List.getLast?_append_of_ne_nil _ (Words.quote_ne_nil m)]
    exact Words.getLast_quote m
  have hhead : ∀ c ∈ (("git commit_message=" : Text) ++ Words.quote m).head?, isBlank c = false := by
    rintro c ⟨⟩
    decide
  have hstrip : Text.strip ("git commit_message=" ++ Words.quote m ++ " ") = "git commit_message=" ++ Words.quote m :=
    Text.trim_run (b := []) (by simp) (List.all_iff_forall_prop.mp (by decide)) hhead hlast
  rw [messageText_eq] at hstrip
  have hname : ∀ c ∈ ("git" : Text), isNameChar c = true := List.all_iff_forall_prop.mp (by decide)
  have hparams : paramsOf (' ' :: (messageKey ++ '=' :: Words.quote m)) = [(messageKey, .text m)] := paramsOf_message m
  rw [ofComment_eq hname (by decide) hstrip rfl, hparams]
  rfl

end Directive

/-! The command -/

namespace GitRepository

/-- The third command commits with the message as one argument. -/
def CommitsWith (r : GitRepository) (m : Text) : Prop :=
  ∃ command, r.initCommands[2]? = some command ∧ Words.split command = .ok (Text.ofStrings ["git", "commit", "-m"] ++ [m])

theorem commandText_eq (q : Text) :
    ("git commit -m " : Text) ++ q = "git" ++ ' ' :: ("commit" ++ ' ' :: ("-m" ++ ' ' :: q)) := rfl

theorem split_commit (m : Text) :
    Words.split ("git commit -m " ++ Words.quote m) = .ok (Text.ofStrings ["git", "commit", "-m"] ++ [m]) := by
  have hgit : ∀ c ∈ ("git" : Text), Words.isPlain c = true := List.all_iff_forall_prop.mp (by decide)
  have hcommit : ∀ c ∈ ("commit" : Text), Words.isPlain c = true := List.all_iff_forall_prop.mp (by decide)
  have hoption : ∀ c ∈ ("-m" : Text), Words.isPlain c = true := List.all_iff_forall_prop.mp (by decide)
  rw [commandText_eq, Words.split, Words.splitFrom_word hgit (by decide), Words.splitFrom_word hcommit (by decide),
    Words.splitFrom_word hoption (by decide), Words.splitFrom_quote]
  rfl

theorem commitsWith_of_draft {r : GitRepository} (h : Plan.draft .git artifacts metadata defaults = .ok (.git r)) :
    r.CommitsWith ((Plan.param? "commit_message" metadata).getD defaults.commitMessage) := by
  obtain ⟨r', hr, heq⟩ := map_eq_ok_iff.mp h
  cases heq
  rw [draft] at hr
  split at hr
  · cases hr
  · cases hr
    exact ⟨_, rfl, split_commit _⟩

end GitRepository

/-! The document -/

/-- A closed block that holds a file. -/
inductive IsFileBlock (b : Text) : Prop
  | mk {o e marker info : Text} {body : List Text} (hlines : splitAt '\n' b = o :: (body ++ [e]))
      (ho : fenceOpening? o = some (marker, info)) (hpath : (⟨info, [], 1⟩ : Fence).filePath.isSome = true)
      (hbody : ∀ l ∈ body, endsBlock marker l = false) (he : endsBlock marker e = true) : IsFileBlock b

theorem IsFileBlock.exists_fence (h : IsFileBlock b) (r : Text) :
    ∃ f ∈ fences (b ++ '\n' :: r), f.filePath.isSome = true := by
  obtain ⟨hlines, ho, hpath, hbody, he⟩ := h
  rename_i o e marker info body
  have hread : fences (b ++ '\n' :: r) = Markup.OpenBlock.finish ⟨marker, info, 1, body.reverse⟩ true ::
      fencesFrom (1 + body.length + 2) none (splitAt '\n' r) := by
    rw [fences, Text.splitAt_append_cons, hlines, List.cons_append, List.append_assoc, List.singleton_append]
    exact Markup.fencesFrom_block ho hbody he 1 _
  refine ⟨_, by rw [hread]; exact List.mem_cons_self, ?_⟩
  exact hpath

open Directive (messageBody messageKey rawOf settingMessage)

/-- A block of a file, and below it a comment that sets a message. -/
def messageDocument (block gap m rest : Text) : Text := block ++ '\n' :: gap ++ (rawOf (messageBody m) ++ rest)

variable {block gap rest : Text} {cl : Classification}

section

variable (hblock : ¬ ("<!--" : Text) <:+: block) (hgap : ∀ c ∈ gap, isBlank c = true)
  (hrest : ∀ c ∈ rest, isBlank c = true) (hm : Comment.IsBody m)

include hblock hgap hrest hm

theorem all_messageDocument : ∃ line, Directive.all (messageDocument block gap m rest) = .ok [settingMessage m line] := by
  have hbefore : ¬ ("<!--" : Text) <:+: block ++ '\n' :: gap := by
    intro hstart
    have hmark : ∀ c ∈ ("<!--" : Text), isBlank c = false := List.all_iff_forall_prop.mp (by decide)
    have hblank : ∀ c ∈ '\n' :: gap, isBlank c = true := List.forall_mem_cons.mpr ⟨rfl, hgap⟩
    refine hblock (Text.infix_of_append_right hstart fun c hc hin => ?_)
    cases (hmark c hc).symm.trans (hblank c hin)
  have hcomments := Comment.all_of_one hbefore (Comment.no_start_of_blank hrest) (Directive.isBody_messageBody hm)
  refine ⟨((1 + (block ++ '\n' :: gap).count '\n' : Nat) : Int), ?_⟩
  rw [messageDocument, Directive.all, hcomments, Directive.ofComments, Directive.ofComment_messageBody]
  rfl

theorem param?_messageDocument (hne : m ≠ []) (hc : Classification.ofText (messageDocument block gap m rest) = .ok cl) :
    Plan.param? "commit_message" cl.metadata = some m := by
  obtain ⟨line, hds⟩ := all_messageDocument hblock hgap hrest hm
  have hset : Classification.paramSettings [settingMessage m line] = [(messageKey, .text m)] := rfl
  have htrue : (Value.text m).isTrue = true := decide_eq_true hne
  have hlast : Fields.last? "commit_message" [(messageKey, Value.text m)] = some (.text m) := rfl
  rw [Classification.metadata_of_ofText hc hds, Classification.param?_metadataOf, hset, hlast, Option.filter_some, if_pos htrue]
  rfl

end

/-- A message that a document sets for the commit of its files is one argument of the command, and so is any message that a
plan of files takes. -/
theorem commitsWith_message :
    (∀ (block gap m rest : Text) (c : Classification) (defaults : PlanDefaults), IsFileBlock block →
      ¬ ("<!--" : Text) <:+: block → (∀ c ∈ gap, isBlank c = true) → (∀ c ∈ rest, isBlank c = true) →
      m ≠ [] → ¬ ("-->" : Text) <:+: m → Classification.ofText (messageDocument block gap m rest) = .ok c →
      ∃ r, Plan.draft .git c.artifacts c.metadata defaults = .ok (.git r) ∧ r.CommitsWith m) ∧
    ∀ (artifacts : List Artifact) (metadata : Fields Value) (defaults : PlanDefaults) (r : GitRepository),
      Plan.draft .git artifacts metadata defaults = .ok (.git r) →
      r.CommitsWith ((Plan.param? "commit_message" metadata).getD defaults.commitMessage) := by
  refine ⟨?_, fun artifacts metadata defaults r h => GitRepository.commitsWith_of_draft h⟩
  intro block gap m rest c defaults hfile hblock hgap hrest hne hm hc
  obtain ⟨f, hf, hpath⟩ := hfile.exists_fence (gap ++ (rawOf (messageBody m) ++ rest))
  have hsame : messageDocument block gap m rest = block ++ '\n' :: (gap ++ (rawOf (messageBody m) ++ rest)) := by
    rw [messageDocument, List.append_assoc, List.cons_append]
  rw [← hsame] at hf
  obtain ⟨a, ha, hkind⟩ := Classification.exists_artifact_of_bears hc hf (.file hpath)
  have hsome : ¬ Target.git.Lacks c.artifacts := by
    intro hlacks
    apply hlacks a ha
    rw [hkind]
    exact List.mem_singleton_self _
  obtain ⟨p, hp⟩ := Plan.exists_draft (Classification.isPlannable_of_ofText hc) hsome nofun defaults
  obtain ⟨r, -, rfl⟩ := map_eq_ok_iff.mp hp
  have hcommit := GitRepository.commitsWith_of_draft hp
  rw [param?_messageDocument hblock hgap hrest hm hne hc] at hcommit
  exact ⟨r, hp, hcommit⟩

/-- A block of one file. -/
def noteBlock : Text := "```file:a.txt\nx\n```"

def noteFile : Artifact := { kind := .file, content := "x", location := some ("a.txt" : Text) }

/-- Quotes, markers and a line that opens a block. -/
def hardMessage : Text := "it's \"done\" \\ 100%=x\n```file:b\n--\n<!-- x"

theorem isFileBlock_noteBlock : IsFileBlock noteBlock := by
  have hlines : Text.splitAt '\n' noteBlock = ("```file:a.txt" : Text) :: ([("x" : Text)] ++ [("```" : Text)]) := by
    decide +kernel
  have hopen : Markup.fenceOpening? ("```file:a.txt" : Text) = some (("```" : Text), ("file:a.txt" : Text)) := by
    decide +kernel
  exact .mk hlines hopen (by decide +kernel) (by decide +kernel) (by decide +kernel)

theorem commitsWith_message_hardMessage :
    (∃ c r, Classification.ofText (messageDocument noteBlock [] hardMessage "\n") = .ok c ∧
      Plan.draft .git c.artifacts c.metadata {} = .ok (.git r) ∧ r.CommitsWith hardMessage) ∧
    ∃ r, Plan.draft .git [noteFile] [] {} = .ok (.git r) ∧ r.CommitsWith "Initial commit from polyglot markdown" := by
  constructor
  · have hread : (Classification.ofText (messageDocument noteBlock [] hardMessage "\n")).toOption.isSome = true := by
      decide +kernel
    cases hc : Classification.ofText (messageDocument noteBlock [] hardMessage "\n") with
    | error e =>
      rw [hc] at hread
      cases hread
    | ok c =>
      obtain ⟨r, hr, hcommit⟩ := commitsWith_message.1 noteBlock [] hardMessage "\n" c {} isFileBlock_noteBlock
        (by decide +kernel) (List.forall_mem_nil _) (List.all_iff_forall_prop.mp (by decide)) (by decide +kernel)
        (by decide +kernel) hc
      exact ⟨c, r, rfl, hr, hcommit⟩
  · exact ⟨_, rfl, commitsWith_message.2 [noteFile] [] {} _ rfl⟩

end Runbook
