import Runbook.Proofs.Plan.Draft

/-!
What directives say to a plan. Of all that the directives of a document set under one name the last holds, and the plan
takes it from the record of the document as it was set.
-/
namespace Runbook

variable {key : Text} {T : Target} {es : Fields Value} {ds : List Directive} {hidden : List HiddenRun}
  {links : List ContentLink} {is : Directive → Bool}

namespace Classification

/-- What directives of a kind set, in their order. -/
def settings (is : Directive → Bool) (ds : List Directive) : Fields Text :=
  (ds.filter is).flatMap fun d => d.params.map fun (k, v) => (k, v.toText)

/-- Directives of the library's own namespace set parameters, but for those that set variables. -/
def isParam (d : Directive) : Bool := d.space = .polyglot && !isEnv d && !isTfvar d

/-- What directives set as parameters, in their order. An inline value stands under the name of its directive. -/
def paramSettings (ds : List Directive) : Fields Value :=
  (ds.filter isParam).flatMap fun d => Fields.opt d.name (d.value.map .text) ++ d.params

theorem mergeAll_eq (rs : List (Fields Value)) : mergeAll rs = Fields.merge [] rs.flatten := List.foldl_flatten.symm

/-- A record of variables holds what was set last. -/
theorem map_mergeAll_texts (is : Directive → Bool) (ds : List Directive) :
    (mergeAll ((ds.filter is).map fun d => texts d.params)).map (fun (k, v) => (k, v.toText)) =
      Fields.merge [] (settings is ds) := by
  rw [mergeAll_eq, Fields.map_merge, List.map_flatten, List.map_map, settings, List.flatMap]
  congr 2
  refine List.map_congr_left fun d _ => ?_
  rw [Function.comp_apply, texts, List.map_map]
  rfl

theorem last?_paramsOf (key : Text) (d : Directive) :
    Fields.last? key (paramsOf d) = Fields.last? key (Fields.opt d.name (d.value.map .text) ++ d.params) := by
  rw [paramsOf]
  cases d.value with
  | none => rfl
  | some v =>
    have hnodup : (Fields.keys (Fields.one d.name (Value.text v))).Nodup := List.nodup_singleton _
    rw [Fields.last?_eq_get? (Fields.nodup_keys_merge hnodup _), Fields.get?_merge, Fields.last?_append,
      ← Fields.last?_eq_get? hnodup]
    rfl

theorem last?_flatMap_congr {α β : Type} {f g : α → Fields β} {as : List α}
    (h : ∀ a ∈ as, Fields.last? key (f a) = Fields.last? key (g a)) :
    Fields.last? key (as.flatMap f) = Fields.last? key (as.flatMap g) := by
  induction as with
  | nil => rfl
  | cons a as ih =>
    rw [List.forall_mem_cons] at h
    rw [List.flatMap_cons, List.flatMap_cons, Fields.last?_append, Fields.last?_append, ih h.2, h.1]

/-- A parameter is what was set last under its name. -/
theorem get?_params_eq (key : Text) (ds : List Directive) :
    Fields.get? key (params ds) = Fields.last? key (paramSettings ds) := by
  have hparams : params ds = mergeAll ((ds.filter isParam).map paramsOf) := rfl
  rw [hparams, mergeAll_eq, Fields.get?_merge, Fields.get?, Option.or_none, paramSettings, ← List.flatMap]
  exact last?_flatMap_congr fun d _ => last?_paramsOf key d

/-! What a plan takes from the record -/

theorem get?_params (ds : List Directive) (hidden : List HiddenRun) (links : List ContentLink) :
    Fields.get? "params" (metadataOf ds hidden links) =
      if params ds = [] then none else some (.ofFields (params ds)) := by
  rw [get?_metadataOf (by decide) (by decide)]
  simp (disch := decide) only [Fields.get?_append, get?_recordUnless_of_ne, get?_listUnless_of_ne, get?_recordUnless,
    Option.none_or, Option.or_none]

theorem params_metadataOf (ds : List Directive) (hidden : List HiddenRun) (links : List ContentLink) :
    Plan.params (metadataOf ds hidden links) = params ds := by
  rw [Plan.params, get?_params]
  by_cases hnone : params ds = []
  · rw [if_pos hnone, hnone]
  · rw [if_neg hnone]
    exact Value.textEntries_map (params ds)

theorem param?_metadataOf (key : Text) (ds : List Directive) (hidden : List HiddenRun) (links : List ContentLink) :
    Plan.param? key (metadataOf ds hidden links) =
      ((Fields.last? key (paramSettings ds)).filter Value.isTrue).map Value.toText := by
  rw [Plan.param?, params_metadataOf, get?_params_eq]

theorem record_of_get? {metadata : Fields Value}
    (h : Fields.get? key metadata = if es = [] then none else some (.ofFields es)) :
    Plan.record T key metadata = .ok (es.map fun (k, v) => (k, v.toText)) := by
  rw [Plan.record, h]
  by_cases hes : es = []
  · rw [if_pos hes, hes]
    rfl
  · rw [if_neg hes, Value.ofFields]
    dsimp only
    rw [List.map_map]
    rfl

theorem record_environment (ds : List Directive) (hidden : List HiddenRun) (links : List ContentLink) :
    Plan.record T "environment" (metadataOf ds hidden links) = .ok (Fields.merge [] (settings isEnv ds)) := by
  rw [record_of_get? (get?_environment ds hidden links), environment, map_mergeAll_texts]

theorem record_terraformVars (ds : List Directive) (hidden : List HiddenRun) (links : List ContentLink) :
    Plan.record T "terraform_vars" (metadataOf ds hidden links) = .ok (Fields.merge [] (settings isTfvar ds)) := by
  rw [record_of_get? (get?_terraformVars ds hidden links), terraformVars, map_mergeAll_texts]

end Classification
end Runbook
