import Runbook.Log.Basic
import Runbook.Document.Annotation
import Runbook.Markup.Sanitize

/-! What the reading of a document logs, step by step in the order of the steps. -/
namespace Runbook.Log

/-- Where the reader stands after the last line. -/
def lastMode : Markup.Mode → Nat → List Text → Markup.Mode
  | mode, _, [] => mode
  | mode, n, l :: ls => lastMode (Markup.readLine mode n l).2 (n + 1) ls

def tokenization (t : Text) : List LogRecord :=
  match lastMode .outside 1 t.lines with
  | .outside => []
  | .code _ => [.of .debug "parser.tokenizer" "Unterminated code fence at end of document"]
  | .comment => [.of .debug "parser.tokenizer" "Unterminated HTML comment at end of document"]

def building (tree : Node) : List LogRecord :=
  [.of .debug "parser.builder" ("Built AST with " ++ Text.ofNat tree.children.length ++ " block nodes")]

/-- A comment that should hold JSON and does not. -/
def malformed (body : Text) (line : Int) : List LogRecord :=
  if Directive.isMalformed body then
    [.of .debug "analyzers.scanners"
      ("Ignoring malformed kyozo JSON directive on line " ++ Text.ofInt line)]
  else []

/-- Comments in order, up to one that is at fault. -/
def scanning : List Comment → List LogRecord
  | [] => []
  | c :: cs =>
    match Directive.ofComment c.body c.line with
    | .ok _ => malformed c.body c.line ++ scanning cs
    | .error _ => []

def classification (t : Text) (c : Classification) : List LogRecord :=
  let directives := match Directive.all t with
    | .ok ds => ds.length
    | .error _ => 0
  [.of .debug "analyzers.classifier"
    ("Classified document as " ++ c.language.name ++ " (" ++ Text.ofNat c.artifacts.length ++
      " artifacts, " ++ Text.ofNat (Markup.fences t).length ++ " fences, " ++
      Text.ofNat directives ++ " directives)")]

def commentNode (n : Node) : List LogRecord :=
  match n.commentBody? with
  | some body => malformed body (n.line?.getD 0)
  | none => []

/-- A code block that gets an envelope. -/
def codeNode (artifacts : List Artifact) (pending : List Directive) (line : Option Int)
    (value : Text) : List LogRecord :=
  let artifact := Node.artifactAt artifacts line
  if artifact.isNone ∧ pending.isEmpty ∧ (HiddenRun.all value).isEmpty then []
  else
    let what := match artifact with
      | some a => a.kind.name.toList
      | none => "directive"
    let place := match line with
      | some l => Text.ofInt l
      | none => "None"
    [.of .debug "parser.enhancer" ("Enhanced code node at line " ++ place ++ " (" ++ what ++ ")")]

mutual

/-- The records of a node, and whether the reading goes on after it. -/
def annotation (artifacts : List Artifact) (pending : List Directive) : Node → List LogRecord × Bool
  | .mk kind position _ children =>
    match kind with
    | .code _ _ value => (codeNode artifacts pending (position.map (·.start.line)) value, true)
    | .text _ => ([], true)
    | _ => if kind.isParent then annotations artifacts [] children else ([], true)

def annotations (artifacts : List Artifact) (pending : List Directive) : List Node → List LogRecord × Bool
  | [] => ([], true)
  | n :: ns =>
    match n.directive? with
    | .error _ => ([], false)
    | .ok (some d) =>
      let (rs, goesOn) := annotations artifacts (pending ++ [d]) ns
      (commentNode n ++ rs, goesOn)
    | .ok none =>
      match annotation artifacts pending n with
      | (rs, false) => (commentNode n ++ rs, false)
      | (rs, true) =>
        let (more, goesOn) := annotations artifacts [] ns
        (commentNode n ++ rs ++ more, goesOn)

end

def parsed (c : Classification) : LogRecord :=
  .of .info "pipeline" ("Parsed document: language=" ++ c.language.name ++ ", " ++
    Text.ofNat c.artifacts.length ++ " artifact(s)")

/-- The records of the reading of a document, up to its fault if it has one. -/
def reading (t : Text) : List LogRecord :=
  let tree := Markup.treeOf t
  tokenization t ++ building tree ++ scanning (Comment.all t) ++
    match Classification.ofText t with
    | .error _ => []
    | .ok c =>
      let (rs, goesOn) := annotations c.artifacts [] tree.children
      classification t c ++ rs ++ if goesOn then [parsed c] else []

def sanitizing (t sanitized : Text) : List LogRecord :=
  if sanitized = t then []
  else [.of .debug "analyzers.sanitizer"
    ("Sanitized document (" ++ Text.ofNat t.length ++ " -> " ++ Text.ofNat sanitized.length ++
      " characters)")]

end Runbook.Log
