import Runbook.Proofs.Value.Fault
import Runbook.Proofs.Markup.Block
import Runbook.Proofs.Markup.Comment
import Runbook.Document.Annotation

/-! What the annotation of a tree reads and writes: comment nodes, and the envelopes of the blocks below them. -/
namespace Runbook

variable {body value : Text} {n : Node} {ns ns' : List Node} {as : List Artifact} {line : Option Int}
  {pending : List Directive}

namespace Node

/-- The directives in the envelope of a node. -/
def attached (n : Node) : List Value :=
  match (Fields.get? Envelope.key n.data).bind (Value.get? "directives") with
  | some (.list ds) => ds
  | _ => []

/-- The envelope of the node says that characters without width are hidden in it. -/
def isFlagged (n : Node) : Bool :=
  match (Fields.get? Envelope.key n.data).bind (Value.get? "hidden") with
  | some (.bool b) => b
  | _ => false

/-- A node with nothing in its data, which is no directive comment. -/
def IsPlain (n : Node) : Prop := n.data = [] ∧ n.directive? = .ok none

theorem attached_of_data (h : n.data = []) : n.attached = [] := by
  rw [attached, h]
  rfl

/-- The text of a comment node is its value between the marks, which may share their hyphens. -/
theorem commentBody?_eq_some (h : n.commentBody? = some body) :
    ∃ v, n.kind = .html v ∧ (body = [] ∨ Directive.rawOf body = v.strip) := by
  unfold commentBody? at h
  split at h
  · rename_i v hv
    dsimp only at h
    split at h
    · rename_i hm
      cases h
      refine ⟨v, hv, ?_⟩
      obtain ⟨x, hx⟩ := Text.startsWith_iff.mp hm.1
      obtain ⟨w, hw⟩ := Text.endsWith_iff.mp hm.2
      by_cases hlen : v.strip.length ≤ 7
      · left
        rw [show v.strip.length - 7 = 0 by omega, List.take_zero]
      · right
        have hxw : ("-->" : Text) <:+ x := by
          refine List.suffix_of_suffix_length_le ⟨w, hw⟩ ⟨_, hx⟩ ?_
          have := congrArg List.length hx
          simp at this ⊢
          omega
        obtain ⟨mid, rfl⟩ := hxw
        rw [← hx]
        simp [Directive.rawOf_eq]
    · cases h
  · cases h

theorem directive?_eq_none (h : ∀ v, n.kind = .html v → ∀ s, Directive.IsComment s → ¬ s <:+: v) :
    n.directive? = .ok none := by
  unfold directive?
  split
  · rename_i body hbody
    obtain ⟨v, hv, rfl | hraw⟩ := commentBody?_eq_some hbody
    · rfl
    · apply Directive.ofComment_eq_none
      intro s hs hsr
      rw [hraw] at hsr
      exact h v hv s hs (hsr.trans (Text.strip_infix v))
  · rfl

/-- The envelope of a code block names the directives above it. -/
theorem attached_of_codeData {p : List Directive} (h : n.data = codeData as p line value []) :
    n.attached = p.map fun d => .text d.raw := by
  dsimp only [codeData] at h
  split at h
  · rename_i hnone
    rw [attached_of_data h, List.isEmpty_iff.mp hnone.2.1, List.map_nil]
  · simp [attached, h, Envelope.store, Envelope.toFields, Envelope.ofBlock, Fields.get?, Fields.put, Fields.one,
      Value.ofFields, Value.get?, Value.getEntry?]

theorem attached_textData {kind : NodeKind} {position : Option Position} {children : List Node} :
    (Node.mk kind position (textData value []) children).attached = [] := by
  unfold textData
  split <;> rfl

mutual

/-- Where no node is a directive comment, the envelopes name no directive at all. -/
theorem annotated_of_plain (as : List Artifact) (n : Node) (h : ∀ m ∈ n.subtree, m.IsPlain) :
    ∃ n', annotated as [] n = .ok n' ∧ ∀ m ∈ n'.subtree, m.attached = [] := by
  match n, h with
  | .mk kind position data children, h =>
    obtain rfl : data = [] := (h _ List.mem_cons_self).1
    have hc : ∀ m ∈ subtrees children, m.IsPlain := fun m hm => h m (List.mem_cons_of_mem _ hm)
    have hkept : ∀ m ∈ subtrees children, m.attached = [] := fun m hm => attached_of_data (hc m hm).1
    unfold annotated
    split
    · refine ⟨_, rfl, fun m hm => ?_⟩
      rcases List.mem_cons.mp hm with rfl | hm
      · exact attached_of_codeData (p := []) rfl
      · exact hkept m hm
    · refine ⟨_, rfl, fun m hm => ?_⟩
      rcases List.mem_cons.mp hm with rfl | hm
      · exact attached_textData
      · exact hkept m hm
    · split
      · obtain ⟨ns, hns, ha⟩ := annotatedAll_of_plain as children hc
        refine ⟨.mk kind position [] ns, by rw [hns]; rfl, fun m hm => ?_⟩
        rcases List.mem_cons.mp hm with rfl | hm
        · exact attached_of_data rfl
        · exact ha m hm
      · refine ⟨_, rfl, fun m hm => ?_⟩
        rcases List.mem_cons.mp hm with rfl | hm
        · exact attached_of_data rfl
        · exact hkept m hm

theorem annotatedAll_of_plain (as : List Artifact) (ns : List Node)
    (h : ∀ m ∈ subtrees ns, m.IsPlain) :
    ∃ ns', annotatedAll as [] ns = .ok ns' ∧ ∀ m ∈ subtrees ns', m.attached = [] := by
  match ns, h with
  | [], _ => exact ⟨[], rfl, by simp [subtrees]⟩
  | n :: ns, h =>
    simp only [subtrees, List.mem_append] at h
    have hn : n.directive? = .ok none := (h n (.inl (by cases n; exact List.mem_cons_self))).2
    obtain ⟨n', hn', ha⟩ := annotated_of_plain as n fun m hm => h m (.inl hm)
    obtain ⟨ns', hns', has⟩ := annotatedAll_of_plain as ns fun m hm => h m (.inr hm)
    refine ⟨n' :: ns', by rw [annotatedAll, hn, hn', hns']; rfl, fun m hm => ?_⟩
    rcases List.mem_append.mp hm with hm | hm
    · exact ha m hm
    · exact has m hm

end

theorem annotate_of_plain (c : Classification) (h : ∀ m ∈ n.subtree, m.IsPlain) :
    ∃ root, n.annotate c = .ok root ∧ ∀ m ∈ root.subtree, m.attached = [] := by
  obtain ⟨kind, position, data, children⟩ := n
  obtain rfl : data = [] := (h _ List.mem_cons_self).1
  obtain ⟨ns, hns, ha⟩ := annotatedAll_of_plain c.artifacts children
    fun m hm => h m (List.mem_cons_of_mem _ hm)
  refine ⟨_, by rw [annotate, hns]; rfl, fun m hm => ?_⟩
  rcases List.mem_cons.mp hm with rfl | hm
  · simp [attached, Node.data, Fields.get?, Fields.put, Fields.one, Value.ofFields, Value.get?,
      Value.getEntry?]
  · exact ha m hm

/-! Faults of comment nodes -/

mutual

theorem annotated_returns (as : List Artifact) (pending : List Directive) (n : Node)
    (h : ∀ m ∈ n.subtree, ∃ d, m.directive? = .ok d) : ∃ n', annotated as pending n = .ok n' := by
  match n, h with
  | .mk kind position data children, h =>
    unfold annotated
    split
    · exact ⟨_, rfl⟩
    · exact ⟨_, rfl⟩
    · split
      · have hc : ∀ m ∈ subtrees children, ∃ d, m.directive? = .ok d :=
          fun m hm => h m (List.mem_cons_of_mem _ hm)
        obtain ⟨ns, hns⟩ := annotatedAll_returns as [] children hc
        exact exists_bind_eq_ok_iff.mpr ⟨ns, hns, _, rfl⟩
      · exact ⟨_, rfl⟩

theorem annotatedAll_returns (as : List Artifact) (pending : List Directive) (ns : List Node)
    (h : ∀ m ∈ subtrees ns, ∃ d, m.directive? = .ok d) : ∃ ns', annotatedAll as pending ns = .ok ns' := by
  match ns, h with
  | [], _ => exact ⟨[], rfl⟩
  | n :: ns, h =>
    simp only [subtrees, List.mem_append] at h
    obtain ⟨d, hd⟩ := h n (.inl (by cases n; exact List.mem_cons_self))
    have hns : ∀ m ∈ subtrees ns, ∃ d, m.directive? = .ok d := fun m hm => h m (.inr hm)
    rw [annotatedAll, exists_bind_eq_ok_iff]
    refine ⟨d, hd, ?_⟩
    cases d with
    | none =>
      obtain ⟨n', hn'⟩ := annotated_returns as pending n fun m hm => h m (.inl hm)
      obtain ⟨ns', hns'⟩ := annotatedAll_returns as [] ns hns
      exact exists_bind_eq_ok_iff.mpr ⟨n', hn', exists_bind_eq_ok_iff.mpr ⟨ns', hns', _, rfl⟩⟩
    | some d =>
      obtain ⟨ns', hns'⟩ := annotatedAll_returns as (pending ++ [d]) ns hns
      exact exists_bind_eq_ok_iff.mpr ⟨ns', hns', _, rfl⟩

end

/-- All nodes in a row are looked at for directives. -/
theorem directive?_of_annotatedAll (h : annotatedAll as pending ns = .ok ns') (hn : n ∈ ns) :
    ∃ d, n.directive? = .ok d := by
  induction ns generalizing pending ns' with
  | nil => cases hn
  | cons m ns ih =>
    rw [annotatedAll] at h
    obtain ⟨d, hd, hrest⟩ := bind_eq_ok_iff.mp h
    rcases List.mem_cons.mp hn with rfl | hn
    · exact ⟨d, hd⟩
    · cases d with
      | none =>
        obtain ⟨_, -, hm⟩ := bind_eq_ok_iff.mp hrest
        obtain ⟨_, hns, -⟩ := bind_eq_ok_iff.mp hm
        exact ih hns hn
      | some d =>
        obtain ⟨_, hns, -⟩ := bind_eq_ok_iff.mp hrest
        exact ih hns hn

end Node
end Runbook
