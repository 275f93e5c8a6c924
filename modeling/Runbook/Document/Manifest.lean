import Runbook.Yaml.Document
import Runbook.Text.Lower

/-! Kubernetes manifests: mappings with an API version and a kind. -/
namespace Runbook.Manifest

open Yaml (Data)

def isManifest (d : Data) : Bool := (d.get? "apiVersion").isSome && (d.get? "kind").isSome

/-- The kind of the first manifest in a text. A text that is no YAML holds none; a scalar without a value is a
fault of the whole text, and so is a kind that cannot be written down. -/
def kind? (t : Text) : Except ReadFault (Option Text) :=
  match Yaml.documents t with
  | (_, some .malformed) => .ok none
  | (_, some f) => .error f
  | (ds, none) =>
    match (ds.find? isManifest).bind (Data.get? "kind") with
    | some kind => kind.toText.map some
    | none => .ok none

/-- The first mapping among the documents, which may come before a fault. -/
def firstMapping? (t : Text) : Except ReadFault (Option Data) :=
  match Yaml.documents t with
  | (ds, f) =>
    match ds.find? Data.isMapping, f with
    | some d, _ => .ok (some d)
    | none, none | none, some .malformed => .ok none
    | none, some f => .error f

/-- Kind and name of a manifest for display, or its kind and number when it has no name. -/
def label (index : Int) (t : Text) : Except ReadFault Text := do
  match ← firstMapping? t with
  | none => .ok ("manifest-" ++ Text.ofInt index)
  | some d =>
    let kind ← match d.get? "kind" with
      | some kind => kind.toText
      | none => .ok "manifest"
    match (d.get? "metadata").bind (Data.get? "name") with
    | some name =>
      if name.isTrue then .ok (kind.lower ++ "/" ++ (← name.toText))
      else .ok (kind.lower ++ "-" ++ Text.ofInt index)
    | none => .ok (kind.lower ++ "-" ++ Text.ofInt index)

end Runbook.Manifest
