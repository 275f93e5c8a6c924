import Runbook.Document.Detector
import Runbook.Markup.ZeroWidth
import Runbook.Markup.ContentLink

/-!
What a document is: the artifacts that all detectors find, the language of the first detector that finds any, and a
record of directives, links and hidden runs.
-/
namespace Runbook

structure Classification where
  language : Language
  artifacts : List Artifact
  metadata : Fields Value
  deriving Repr

namespace Classification

def runDetectors (fences : List Fence) (directives : List Directive) :
    List Language → Except ReadFault (List (Language × List Artifact))
  | [] => .ok []
  | l :: ls => do
    let found ← Detector.detect l fences directives
    .ok ((l, found) :: (← runDetectors fences directives ls))

/-- The language of the first detector that found something. -/
def decide (found : List (Language × List Artifact)) : Language :=
  ((found.find? fun (_, artifacts) => !artifacts.isEmpty).map (·.1)).getD .none

def texts (params : Fields Value) : Fields Value :=
  params.map fun (k, v) => (k, .text v.toText)

def isEnv (d : Directive) : Bool := d.space = .polyglot && d.name = "env"

def isTfvar (d : Directive) : Bool := d.space = .polyglot && d.name = "tfvar"

/-- The parameters of a directive, its inline value first under its name. -/
def paramsOf (d : Directive) : Fields Value :=
  match d.value with
  | some v => Fields.merge (Fields.one d.name (.text v)) d.params
  | none => d.params

def mergeAll (rs : List (Fields Value)) : Fields Value := rs.foldl Fields.merge []

def environment (ds : List Directive) : Fields Value :=
  mergeAll ((ds.filter isEnv).map fun d => texts d.params)

def terraformVars (ds : List Directive) : Fields Value :=
  mergeAll ((ds.filter isTfvar).map fun d => texts d.params)

def params (ds : List Directive) : Fields Value :=
  mergeAll ((ds.filter fun d => d.space = .polyglot && !isEnv d && !isTfvar d).map paramsOf)

def kyozo (ds : List Directive) : List Value :=
  (ds.filter (·.space = .kyozo)).map fun d =>
    .ofFields (Fields.one "directive" (.text d.name) ++ Fields.one "params" (.ofFields d.params))

def recordUnless (name : String) (es : Fields Value) : Fields Value :=
  if es.isEmpty then [] else Fields.one name (.ofFields es)

def listUnless (name : String) (xs : List Value) : Fields Value :=
  if xs.isEmpty then [] else Fields.one name (.list xs)

/-- The record of a document. The first directive gives it its type; without one, hidden runs do. -/
def metadataOf (ds : List Directive) (hidden : List HiddenRun) (links : List ContentLink) : Fields Value :=
  let first : Fields Value := match ds.head? with
    | some d => Fields.one "type" (.text d.space.name) ++ Fields.one "subtype" (.text d.name)
    | none => []
  let last : Fields Value := if first.isEmpty ∧ ¬hidden.isEmpty then
      Fields.one "type" (.text "hidden_payload") ++ Fields.one "subtype" (.text "zero_width")
    else []
  first ++ listUnless "directives" (ds.map Directive.toValue) ++ recordUnless "params" (params ds) ++
    recordUnless "environment" (environment ds) ++ recordUnless "terraform_vars" (terraformVars ds) ++
    listUnless "kyozo" (kyozo ds) ++ listUnless "content_links" (links.map ContentLink.toValue) ++
    listUnless "hidden" (hidden.map HiddenRun.toValue) ++ last

/-- The classification of a text by the given detectors. -/
def ofTextWith (detectors : List Language) (t : Text) : Except ReadFault Classification := do
  let fences := Markup.fences t
  let directives ← Directive.all t
  let found ← runDetectors fences directives detectors
  .ok ⟨decide found, found.flatMap (·.2),
    metadataOf directives (HiddenRun.all t) (ContentLink.all t)⟩

def ofText (t : Text) : Except ReadFault Classification := ofTextWith Detector.priority t

def toValue (c : Classification) : Value :=
  .ofFields (
    Fields.one "language" (.text c.language.name) ++
    Fields.one "artifacts" (.list (c.artifacts.map Artifact.toValue)) ++
    Fields.one "metadata" (.ofFields c.metadata))

/-- A directive comment, by its start only. -/
def quickDirective : Text.Pattern Unit := fun _ t =>
  match Text.after? "<!--" t with
  | some rest => (Directive.namespace? (rest.dropWhile Text.isBlank)).map fun _ => ((), 4)
  | none => none

/-- One of the words that claim a fence on their own, in any case, or a file with a path. -/
def claimsFence (t : Text) : Bool :=
  ["dockerfile", "terraform", "hcl", "sql"].any (fun word =>
    match Text.afterFolded? word.toList t with
    | some rest => rest.head?.all Text.isBlank
    | none => false) ||
  match Text.afterFolded? "file:" t with
  | some rest => rest.head?.any (!Text.isBlank ·)
  | none => false

/-- An opening fence with such a word, by its line only. -/
def quickFence : Text.Pattern Unit := fun before t =>
  if before = none ∨ before = some '\n' then
    match (Markup.indented? t).bind Markup.marker? with
    | some (_, rest) => if claimsFence (rest.dropWhile Text.isGap) then some ((), 1) else none
    | none => none
  else none

/-- Whether a document carries anything beyond plain Markdown; YAML is read only where both of its keys occur. -/
def isPolyglot (t : Text) : Except ReadFault Bool := do
  if Text.meets quickFence t ∨ Text.meets quickDirective t then .ok true
  else
    let body := if t.head? = some ZeroWidth.frame then t.drop 1 else t
    if body.any ZeroWidth.isZeroWidth then .ok true
    else if t.includes "apiVersion" ∧ t.includes "kind" then
      .ok (!(← Detector.kubernetes (Markup.fences t)).isEmpty)
    else .ok false

end Classification
end Runbook
