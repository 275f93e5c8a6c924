import Runbook.Proofs.Markup.CommentCut
import Runbook.Proofs.Markup.Stream
import Runbook.Proofs.Document.Annotation

/-!
Comment nodes and the raw text. A node holds whole lines, so a directive in it stands on lines of its own; it is among the
directives of the text exactly where a comment is found at that place.
-/
namespace Runbook

open Text (isBlank joinLines lines splitAt)

variable {t l body : Text} {as bs ls : List Text} {k : Token} {post : List Token} {mode : Markup.Mode} {n : Nat} {m : Node}
  {d : Directive} {line : Int} {cs : List Comment} {ds : List Directive} {p q : Text}

/-! Directives of comments -/

namespace Directive

/-- A directive keeps its comment and the line of it. -/
theorem raw_of_ofComment (h : ofComment body line = .ok (some d)) : d.raw = rawOf body ∧ d.line = line := by
  unfold ofComment at h
  split at h
  · cases h
  · dsimp only at h
    split at h
    · split at h <;> cases h
      exact ⟨rfl, rfl⟩
    · split at h <;> cases h
      exact ⟨rfl, rfl⟩

theorem head_of_ofComment (h : ofComment body line = .ok (some d)) : ∃ c ∈ body.head?, c ≠ '>' ∧ c ≠ '-' := by
  cases hn : namespace? (body.dropWhile isBlank) with
  | none =>
    rw [ofComment, hn] at h
    cases h
  | some read =>
    obtain ⟨space, rest⟩ := read
    have hname := namespace?_eq_some_iff.mp hn
    obtain ⟨blanks, r, rfl, hb, hr⟩ := Text.exists_run isBlank body
    rw [Text.dropWhile_run hb hr] at hname
    cases blanks with
    | nil =>
      rw [List.nil_append, hname]
      cases space with
      | polyglot => exact ⟨'p', rfl, by decide⟩
      | kyozo => exact ⟨'k', rfl, by decide⟩
    | cons c blanks =>
      have hc : isBlank c = true := hb c List.mem_cons_self
      refine ⟨c, rfl, ?_, ?_⟩ <;> rintro rfl <;> exact absurd hc (by decide)

theorem mem_ofComments_iff (h : ofComments cs = .ok ds) :
    d ∈ ds ↔ ∃ c ∈ cs, ofComment c.body c.line = .ok (some d) := by
  induction cs generalizing ds with
  | nil =>
    cases h
    simp
  | cons c cs ih =>
    rw [ofComments] at h
    obtain ⟨read, hread, h⟩ := bind_eq_ok_iff.mp h
    rw [List.exists_mem_cons_iff, hread]
    cases read with
    | none =>
      rw [ih h]
      simp
    | some e =>
      obtain ⟨rest, hrest, h⟩ := bind_eq_ok_iff.mp h
      cases h
      rw [List.mem_cons, ih hrest]
      simp [eq_comm]

theorem rawOf_injective {a b : Text} (h : rawOf a = rawOf b) : a = b := by
  rw [rawOf_eq, rawOf_eq] at h
  exact List.append_cancel_left (List.append_cancel_right h)

/-- A directive on lines of its own is one of the text where its comment is found. -/
theorem mem_all_iff (hds : all t = .ok ds) (h : Comment.IsAlone t p body q)
    (hd : ofComment body (1 + p.count '\n' : Nat) = .ok (some d)) :
    d ∈ ds ↔ Comment.IsClosed p ∧ Comment.IsBody body := by
  rw [← h.mem_all_iff (head_of_ofComment hd), mem_ofComments_iff hds]
  constructor
  · rintro ⟨c, hc, hd'⟩
    obtain ⟨hraw, hline⟩ := raw_of_ofComment hd
    obtain ⟨hraw', hline'⟩ := raw_of_ofComment hd'
    have hbody : c.body = body := rawOf_injective (hraw'.symm.trans hraw)
    have hplace : c.line = 1 + p.count '\n' := Int.ofNat.inj (hline'.symm.trans hline)
    rw [← hbody, ← hplace]
    exact hc
  · intro hc
    exact ⟨_, hc, hd⟩

end Directive

/-! Comment nodes -/

namespace Markup

/-- The first line of a comment starts with its mark. -/
theorem start_of_readLine (h : (readLine mode n l).1.kind = .comment ∨ (readLine mode n l).1.kind = .commentOpen) :
    ("<!--" : Text) <+: l.strip := by
  cases mode with
  | outside =>
    rw [readLine] at h
    revert h
    fun_cases readOutside n l
    case case2 rest hrest _ | case3 rest hrest _ =>
      intro _
      exact ⟨rest, (Text.after?_eq_some_iff.mp hrest).symm⟩
    all_goals rintro (h | h) <;> cases h
  | code marker =>
    rw [readLine] at h
    split at h <;> rcases h with h | h <;> cases h
  | comment =>
    rw [readLine] at h
    split at h <;> rcases h with h | h <;> cases h

theorem kind_of_html {v : Text} (h : blockAt k post = some m) (hv : m.kind = .html v) :
    (k.kind = .comment ∨ k.kind = .commentOpen) ∧ m.line? = some k.line := by
  unfold blockAt at h
  split at h <;> cases h
  case h_3 hk => exact ⟨.inl hk, rfl⟩
  case h_4 hk => exact ⟨.inr hk, rfl⟩
  all_goals cases hv

/-- The blanks before a comment are those of its first line. -/
theorem newline_not_mem_of_start (hl : '\n' ∉ l) (hstart : ("<!--" : Text) <+: l.strip) (hb : ∀ c ∈ b, isBlank c = true)
    (hown : joinLines (l :: ls) = b ++ (Directive.rawOf body ++ r)) : '\n' ∉ b := by
  obtain ⟨b₀, e₀, hline, hb₀, -⟩ := Text.exists_strip l
  obtain ⟨z, hz⟩ := hstart
  obtain ⟨y, hy, -⟩ := Text.joinLines_append_rest (List.cons_ne_nil l []) ls
  have hsame : joinLines (l :: ls) = b₀ ++ ('<' :: ("!--" ++ z ++ e₀ ++ y)) := by
    rw [show joinLines (l :: ls) = l ++ y from hy, hline, ← hz]
    simp
  have hhead : ∀ c ∈ ('<' :: ("!--" ++ z ++ e₀ ++ y)).head?, isBlank c = false := by
    rintro c ⟨⟩
    rfl
  have hhead' : ∀ c ∈ (Directive.rawOf body ++ r).head?, isBlank c = false := by
    intro c hc
    rw [Comment.head_rawOf body _ c hc]
    rfl
  have htake := Text.takeWhile_run hb₀ hhead
  rw [← hsame, hown, Text.takeWhile_run hb hhead'] at htake
  rw [htake]
  intro hc
  apply hl
  rw [hline]
  exact List.mem_append_left _ hc

/-- What is left of whole lines, the first of which starts with a mark, is alone on them. -/
theorem exists_isAlone_of_lines (has : ∀ a ∈ as, '\n' ∉ a) (hl : '\n' ∉ l) (hstart : ("<!--" : Text) <+: l.strip)
    (hraw : Directive.rawOf body = (joinLines (l :: ls)).strip.strip) (cs : List Text) :
    ∃ p q, Comment.IsAlone (joinLines (as ++ (l :: ls ++ cs))) p body q ∧ p.count '\n' = as.length := by
  obtain ⟨b, e, hinner, hb, he⟩ := Text.exists_strip (joinLines (l :: ls))
  obtain ⟨b', e', houter, hb', he'⟩ := Text.exists_strip (joinLines (l :: ls)).strip
  have hown : joinLines (l :: ls) = (b ++ b') ++ (Directive.rawOf body ++ (e' ++ e)) := by
    rw [hinner, houter, ← hraw]
    simp
  have hblank : ∀ c ∈ b ++ b', isBlank c = true := fun c hc => (List.mem_append.mp hc).elim (hb c) (hb' c)
  have hfeed : '\n' ∉ b ++ b' := newline_not_mem_of_start hl hstart hblank hown
  obtain ⟨r, hr, hrhead⟩ := Text.joinLines_append_rest (List.cons_ne_nil l ls) cs
  refine ⟨Text.ended as ++ (b ++ b'), e' ++ e ++ r, ⟨?_, ⟨_, _, rfl, hblank, Text.getLast_ended as⟩, ⟨_, _, rfl, ?_, hrhead⟩⟩,
    ?_⟩
  · rw [Text.joinLines_append (by simp), hr, hown]
    simp
  · exact fun c hc => (List.mem_append.mp hc).elim (he' c) (he c)
  · rw [List.count_append, Text.count_ended has, List.count_eq_zero_of_not_mem hfeed, Nat.add_zero]

/-- A directive of a comment node stands in the text on lines of its own, on the line where the node begins. -/
theorem exists_isAlone (ht : '\r' ∉ t) (hm : m ∈ (treeOf t).subtree) (hd : m.directive? = .ok (some d)) :
    ∃ p body q, Comment.IsAlone t p body q ∧ Directive.ofComment body (1 + p.count '\n' : Nat) = .ok (some d) := by
  obtain ⟨body, hbody⟩ : ∃ body, m.commentBody? = some body := by
    rw [← Option.isSome_iff_exists]
    cases hnone : m.commentBody? with
    | none =>
      rw [Node.directive?, hnone] at hd
      cases hd
    | some _ => rfl
  rw [Node.directive?, hbody] at hd
  obtain ⟨v, hv, hnil | hraw⟩ := Node.commentBody?_eq_some hbody
  · rw [hnil] at hd
    cases hd
  obtain ⟨-, k, post, ⟨pre, hpre⟩, hblock⟩ := mem_children_of_html hm hv
  obtain ⟨taken, ⟨rest, hrest⟩, hkeeps, hvalue⟩ := html_of_blockAt hblock hv
  obtain ⟨hkind, hline⟩ := kind_of_html hblock hv
  -- the lines before the node, its own, and those after it
  have hread : readLines .outside 1 t.lines = pre ++ (k :: post) := hpre.symm
  obtain ⟨as, bs, mode, hlines, -, hbs⟩ := exists_of_readLines_eq_append hread
  obtain ⟨ls, cs, mode', hcut, htaken, -⟩ := exists_of_readLines_eq_append (hbs.trans hrest.symm)
  have htexts : taken.map (·.text) = ls := by
    rw [← htaken] at hkeeps ⊢
    exact texts_readLines hkeeps
  rw [htexts] at hvalue
  cases ls with
  | nil =>
    rw [hvalue] at hraw
    cases hraw
  | cons l ls =>
    obtain ⟨htoken, -⟩ : (readLine mode (1 + as.length) l).1 = k ∧ _ := by
      rw [hcut, List.cons_append, readLines] at hbs
      exact List.cons.inj hbs
    have hstart : ("<!--" : Text) <+: l.strip := start_of_readLine (htoken ▸ hkind)
    have hsplit : splitAt '\n' t = as ++ (l :: ls ++ cs) := by
      rw [← Text.lines_of_no_return ht, hlines, hcut]
    have hfeeds : ∀ a ∈ as ++ (l :: ls ++ cs), '\n' ∉ a := by
      intro a ha
      rw [← hsplit] at ha
      obtain ⟨_, _, _, h, _⟩ := Text.mem_splitAt_iff.mp ha
      exact h
    have has : ∀ a ∈ as, '\n' ∉ a := fun a ha => hfeeds a (by simp [ha])
    obtain ⟨p, q, halone, hcount⟩ := exists_isAlone_of_lines has (hfeeds l (by simp)) hstart (hvalue ▸ hraw) cs
    rw [← hsplit, Text.joinLines_splitAt] at halone
    refine ⟨p, body, q, halone, ?_⟩
    have hnumber : k.line = (1 + as.length : Nat) := by
      rw [← htoken]
      exact readLine_line mode _ l
    rw [hcount, ← hd, hline, hnumber]
    rfl

end Markup
end Runbook
