import Runbook.Proofs.Text.Search
import Runbook.Proofs.Text.Substitution
import Runbook.Markup.Sanitize

/-! The two marks that a raw text can carry, directive comments and content links, as grammars beside their readers. -/
namespace Runbook

open Text (Reads Silent)

variable {b : Option Char} {t s r body text hash : Text} {space : Namespace} {n : Nat} {c : Char}

/-! Directive comments -/

/-- What every directive comment starts with. -/
inductive Directive.IsOpening : Namespace → Text → Prop
  | mk {space : Namespace} {blanks : Text} (hb : ∀ c ∈ blanks, Text.isBlank c = true) :
      IsOpening space ("<!--" ++ blanks ++ space.name ++ ":")

/-- A directive comment goes up to the first end mark after its opening. -/
inductive Directive.IsComment : Text → Prop
  | mk {space : Namespace} {opening body : Text} (ho : IsOpening space opening)
      (hf : ¬ ("-->" : Text) <:+: body ++ ("--" : Text)) : IsComment (opening ++ body ++ "-->")

namespace Directive

theorem namespace?_eq_some_iff : namespace? t = some (space, r) ↔ t = space.name ++ ":" ++ r := by
  have hp : ("polyglot:" : Text) = Namespace.polyglot.name ++ ":" := rfl
  have hk : ("kyozo:" : Text) = Namespace.kyozo.name ++ ":" := rfl
  rw [namespace?]
  constructor
  · intro h
    split at h
    · rename_i hr
      cases h
      rw [← hp]
      exact Text.after?_eq_some_iff.mp hr
    · obtain ⟨r, hr, he⟩ := Option.map_eq_some_iff.mp h
      cases he
      rw [← hk]
      exact Text.after?_eq_some_iff.mp hr
  · rintro rfl
    cases space with
    | polyglot =>
      rw [← hp, Text.after?_append]
    | kyozo =>
      have hn : Text.after? "polyglot:" ("kyozo:" ++ r) = none := rfl
      rw [← hk, hn, Text.after?_append]
      rfl

/-- Blanks before a namespace are skipped, and no letter of its name is. -/
theorem dropWhile_name {blanks : Text} (hb : ∀ c ∈ blanks, Text.isBlank c = true) (space : Namespace)
    (r : Text) : (blanks ++ (space.name ++ r)).dropWhile Text.isBlank = space.name ++ r := by
  apply Text.dropWhile_run hb
  cases space <;> rintro c ⟨⟩ <;> decide

/-- An opening is what is read as a namespace after the start mark of a comment. -/
theorem namespace?_dropWhile_iff :
    (∃ r, namespace? (body.dropWhile Text.isBlank) = some (space, r)) ↔
      ∃ o, IsOpening space o ∧ o <+: "<!--" ++ body := by
  constructor
  · rintro ⟨r, h⟩
    obtain ⟨blanks, q, rfl, hb, hq⟩ := Text.exists_run Text.isBlank body
    rw [Text.dropWhile_run hb hq, namespace?_eq_some_iff] at h
    subst h
    exact ⟨_, .mk hb, r, by simp [List.append_assoc]⟩
  · rintro ⟨o, ⟨hb⟩, q, hq⟩
    rename_i blanks
    have : body = blanks ++ (space.name ++ (":" ++ q)) := by
      have := hq.symm
      simp only [List.append_assoc] at this
      exact List.append_cancel_left this
    rw [this, dropWhile_name hb]
    exact ⟨q, namespace?_eq_some_iff.mpr (by simp [List.append_assoc])⟩

theorem IsComment.length_pos (h : IsComment s) : 0 < s.length := by
  obtain ⟨_, _⟩ := h
  have hmark : ("-->" : Text).length = 3 := rfl
  rw [List.length_append, hmark]
  omega

theorem IsComment.ne_nil (h : IsComment s) : s ≠ [] := List.length_pos_iff.mp h.length_pos

/-- An opening with an end mark anywhere after it starts a directive comment. -/
theorem IsComment.exists_at_start {o : Text} (ho : IsOpening space o) (h : ("-->" : Text) <:+: r) :
    ∃ s, IsComment s ∧ s <+: o ++ r := by
  obtain ⟨body, hbody⟩ := Text.exists_before? (by decide) h
  obtain ⟨hr, hf⟩ := (Text.before?_eq_some_iff (by decide)).mp hbody
  refine ⟨_, .mk ho hf, ?_⟩
  rw [List.append_assoc]
  exact (List.prefix_append_right_inj o).mpr hr

end Directive

namespace Sanitize

open Directive

theorem commentAtStart_of_no_start (h : ¬ ("<!--" : Text) <+: t) : commentAtStart t = none := by
  unfold commentAtStart
  split
  · exact (h ⟨_, rfl⟩).elim
  · rfl

theorem commentAtStart_append (t : Text) :
    commentAtStart ("<!--" ++ t) = (namespace? (t.dropWhile Text.isBlank)).bind fun p =>
      (Text.before? "-->" p.2).map fun body => ("<!--" ++ t).length - p.2.length + body.length + 3 := by
  have hmarks : "<!--" ++ t = '<' :: '!' :: '-' :: '-' :: t := rfl
  rw [hmarks, commentAtStart]
  cases namespace? (t.dropWhile Text.isBlank) <;> rfl

/-- The reader of directive comments reads exactly the comments of the grammar. -/
theorem commentAtStart_eq_some_iff :
    commentAtStart t = some n ↔ ∃ s, IsComment s ∧ s <+: t ∧ s.length = n := by
  constructor
  · intro h
    by_cases ht : ("<!--" : Text) <+: t
    · obtain ⟨inside, rfl⟩ := ht
      rw [commentAtStart_append] at h
      obtain ⟨⟨space, r⟩, hn, h⟩ := Option.bind_eq_some_iff.mp h
      obtain ⟨body, hbody, rfl⟩ := Option.map_eq_some_iff.mp h
      obtain ⟨⟨post, rfl⟩, hf⟩ := (Text.before?_eq_some_iff (by decide)).mp hbody
      obtain ⟨blanks, q, rfl, hb, hq⟩ := Text.exists_run Text.isBlank inside
      rw [Text.dropWhile_run hb hq, namespace?_eq_some_iff] at hn
      subst hn
      have ho : IsOpening space ("<!--" ++ blanks ++ space.name ++ ":") := .mk hb
      refine ⟨_, .mk ho hf, ⟨post, by simp⟩, ?_⟩
      simp
      omega
    · rw [commentAtStart_of_no_start ht] at h
      cases h
  · rintro ⟨s, ⟨⟨hb⟩, hf⟩, ⟨post, rfl⟩, rfl⟩
    rename_i space body blanks
    have hbody : Text.before? "-->" (body ++ ("-->" ++ post)) = some body :=
      (Text.before?_eq_some_iff (by decide)).mpr ⟨⟨post, by simp⟩, hf⟩
    have hn : namespace? (space.name ++ (":" ++ (body ++ ("-->" ++ post)))) =
        some (space, body ++ ("-->" ++ post)) := namespace?_eq_some_iff.mpr (by simp)
    simp only [List.append_assoc]
    rw [commentAtStart_append, dropWhile_name hb, hn, Option.bind_some, hbody]
    simp
    omega

theorem reads_span_iff : Reads span b t ↔ ∃ s, IsComment s ∧ s <+: t := by
  constructor
  · rintro ⟨a, n, h⟩
    obtain ⟨k, hk, _⟩ := Option.map_eq_some_iff.mp h
    obtain ⟨s, hs, ht, _⟩ := commentAtStart_eq_some_iff.mp hk
    exact ⟨s, hs, ht⟩
  · rintro ⟨s, hs, ht⟩
    have hk := commentAtStart_eq_some_iff.mpr ⟨s, hs, ht, rfl⟩
    refine ⟨(), s.length - 1, ?_⟩
    rw [span, hk, Option.map_some, Nat.sub_add_cancel hs.length_pos]

theorem silent_span_iff : Silent span b t ↔ ∀ s, IsComment s → ¬ s <:+: t :=
  Text.silent_iff_not_infix (fun _ _ => reads_span_iff) fun _ h => h.ne_nil

end Sanitize

/-! Content links -/

namespace ContentLink

/-- A content hash between blanks, up to the parenthesis that closes a link. -/
inductive IsTarget (hash : Text) : Text → Prop
  | mk {b₁ b₂ : Text} (h₁ : ∀ c ∈ b₁, Text.isBlank c = true) (hh : ∀ c ∈ hash, isHexDigit c = true)
      (hl : 40 ≤ hash.length) (h₂ : ∀ c ∈ b₂, Text.isBlank c = true) :
      IsTarget hash (b₁ ++ hash ++ b₂ ++ [')'])

/-- A link with a content hash for its target. Its text goes up to the first closing bracket. -/
inductive IsLink (text hash : Text) : Text → Prop
  | mk {target : Text} (ht : ']' ∉ text) (h : IsTarget hash target) :
      IsLink text hash ('[' :: text ++ "](" ++ target)

theorem not_isBlank_of_isHexDigit (h : isHexDigit c = true) : Text.isBlank c = false := by
  have hc : (48 ≤ c.toNat ∧ c.toNat ≤ 57) ∨ (97 ≤ c.toNat ∧ c.toNat ≤ 102) ∨ (65 ≤ c.toNat ∧ c.toNat ≤ 70) := by
    unfold isHexDigit Text.hexValue? at h
    split at h
    · rename_i hd
      simp only [Char.isDigit, Bool.and_eq_true, decide_eq_true_eq] at hd
      exact .inl hd
    · split at h
      · rename_i hd
        exact .inr (.inl hd)
      · split at h
        · rename_i hd
          exact .inr (.inr hd)
        · simp at h
  simp only [Text.isBlank, Bool.or_eq_false_iff, Bool.and_eq_false_iff, decide_eq_false_iff_not]
  omega

theorem IsTarget.head_not_hex {b₂ : Text} (h₂ : ∀ c ∈ b₂, Text.isBlank c = true) (r : Text) :
    ∀ c ∈ (b₂ ++ ')' :: r).head?, isHexDigit c = false := by
  intro c hc
  cases b₂ with
  | nil =>
    cases hc
    decide
  | cons d b₂ =>
    obtain rfl : d = c := Option.mem_some_iff.mp hc
    have := h₂ d List.mem_cons_self
    cases hd : isHexDigit d with
    | false => rfl
    | true => simp [not_isBlank_of_isHexDigit hd] at this

theorem target?_eq_some_iff : target? t = some (hash, r) ↔ ∃ s, IsTarget hash s ∧ t = s ++ r := by
  constructor
  · intro h
    obtain ⟨b₁, q, rfl, h₁, hq⟩ := Text.exists_run Text.isBlank t
    obtain ⟨hash', q, rfl, hh, hq'⟩ := Text.exists_run isHexDigit q
    obtain ⟨b₂, q, rfl, h₂, hq''⟩ := Text.exists_run Text.isBlank q
    simp only [target?, Text.dropWhile_run h₁ hq, Text.takeWhile_run hh hq', Text.dropWhile_run hh hq',
      Text.dropWhile_run h₂ hq''] at h
    split at h
    · split at h
      · rename_i hl
        cases h
        exact ⟨_, .mk h₁ hh hl h₂, by simp⟩
      · cases h
    · cases h
  · rintro ⟨s, ⟨h₁, hh, hl, h₂⟩, rfl⟩
    rename_i b₁ b₂
    have hq' := IsTarget.head_not_hex h₂ r
    have hq : ∀ c ∈ (hash ++ (b₂ ++ ')' :: r)).head?, Text.isBlank c = false := by
      intro c hc
      cases hash with
      | nil => simp at hl
      | cons d hash =>
        obtain rfl : d = c := Option.mem_some_iff.mp hc
        exact not_isBlank_of_isHexDigit (hh d List.mem_cons_self)
    have hq'' : ∀ c ∈ (')' :: r).head?, Text.isBlank c = false := by
      rintro c ⟨⟩
      decide
    rw [show b₁ ++ hash ++ b₂ ++ [')'] ++ r = b₁ ++ (hash ++ (b₂ ++ ')' :: r)) by simp]
    simp only [target?, Text.dropWhile_run h₁ hq, Text.takeWhile_run hh hq', Text.dropWhile_run hh hq',
      Text.dropWhile_run h₂ hq'', if_pos hl]

/-- The reader of content links reads exactly the links of the grammar. -/
theorem atStart_eq_some_iff :
    atStart b t = some ((text, hash), n) ↔ ∃ s, IsLink text hash s ∧ s <+: t ∧ s.length = n := by
  constructor
  · intro h
    unfold atStart at h
    split at h
    · rename_i inside
      obtain ⟨text', q, rfl, ht, hq⟩ := Text.exists_run (· ≠ ']') inside
      simp only [Text.takeWhile_run ht hq, Text.dropWhile_run ht hq] at h
      split at h
      · rename_i after
        obtain ⟨⟨hash', r⟩, hr, h⟩ := Option.map_eq_some_iff.mp h
        cases h
        obtain ⟨target, htarget, rfl⟩ := target?_eq_some_iff.mp hr
        refine ⟨_, .mk (fun hm => ?_) htarget, ⟨r, by simp⟩, ?_⟩
        · simpa using ht _ hm
        · simp
          omega
      · cases h
    · cases h
  · rintro ⟨s, ⟨ht, h⟩, ⟨post, rfl⟩, rfl⟩
    rename_i target
    have ht' : ∀ c ∈ text, (decide (c ≠ ']')) = true := by
      intro c hc
      simp only [decide_eq_true_eq]
      rintro rfl
      exact ht hc
    have hq : ∀ c ∈ (("](" : Text) ++ (target ++ post)).head?, (decide (c ≠ ']')) = false := by
      rintro c ⟨⟩
      decide
    have hr : target? (target ++ post) = some (hash, post) :=
      target?_eq_some_iff.mpr ⟨target, h, rfl⟩
    rw [show '[' :: text ++ ("](" : Text) ++ target ++ post = '[' :: (text ++ ("](" ++ (target ++ post))) by
      simp]
    simp only [atStart, Text.takeWhile_run ht' hq, Text.dropWhile_run ht' hq]
    rw [show ("](" : Text) ++ (target ++ post) = ']' :: '(' :: (target ++ post) from rfl]
    simp only [hr, Option.map_some]
    simp
    omega

theorem IsLink.length_pos (h : IsLink text hash s) : 0 < s.length := by
  obtain ⟨_, _⟩ := h
  simp

theorem reads_atStart_iff : Reads atStart b t ↔ ∃ s, (∃ text hash, IsLink text hash s) ∧ s <+: t := by
  constructor
  · rintro ⟨⟨text, hash⟩, n, h⟩
    obtain ⟨s, hs, ht, _⟩ := atStart_eq_some_iff.mp h
    exact ⟨s, ⟨text, hash, hs⟩, ht⟩
  · rintro ⟨s, ⟨text, hash, hs⟩, ht⟩
    refine ⟨(text, hash), s.length - 1, ?_⟩
    rw [Nat.sub_add_cancel hs.length_pos]
    exact atStart_eq_some_iff.mpr ⟨s, hs, ht, rfl⟩

theorem silent_atStart_iff :
    Silent atStart b t ↔ ∀ s, (∃ text hash, IsLink text hash s) → ¬ s <:+: t :=
  Text.silent_iff_not_infix (fun _ _ => reads_atStart_iff)
    fun _ ⟨_, _, h⟩ => List.length_pos_iff.mp h.length_pos

theorem all_eq_nil (h : Silent atStart none t) : all t = [] := by
  rw [all, Text.hits_eq_nil_iff.mpr h]
  rfl

/-- An inert link is shorter than the link, as its target is a single character. -/
theorem length_inert_lt (h : IsLink text hash s) : (inert (text, hash)).length < s.length := by
  obtain ⟨_, ⟨_, _, hl, _⟩⟩ := h
  simp [inert]
  omega

end ContentLink
end Runbook
