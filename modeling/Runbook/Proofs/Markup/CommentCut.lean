import Runbook.Proofs.Markup.Comment

/-!
Where comments stand. One opens at every start mark that is not inside another comment and has an end mark after it, and
it goes up to the first. So what is a comment on its own is one in a text only where no other is still open.
-/
namespace Runbook

open Directive (rawOf rawOf_eq)
open Text (Piece hitsFrom pieces piecesFrom)

namespace Comment

variable {t r p q x body : Text} {b : Option Char} {c d : Char} {k n : Nat} {m : Comment}

/-- The end mark does not stand in a body. -/
def IsBody (body : Text) : Prop := ¬ ("-->" : Text) <:+: body

/-- A text at whose end no comment is open. -/
inductive IsClosed : Text → Prop
  | nil : IsClosed []
  | plain {c : Char} {t : Text} (hc : ¬ ("<!--" : Text) <+: c :: t) (h : IsClosed t) : IsClosed (c :: t)
  | comment {body t : Text} (hb : IsBody body) (h : IsClosed t) : IsClosed (rawOf body ++ t)

/-- The comments of a text whose first line has number `n`. -/
def allFrom (n : Nat) (t : Text) : List Comment := (hitsFrom 0 n (pieces atStart t)).map fun h => ⟨h.value, h.line⟩

theorem all_eq (t : Text) : all t = allFrom 1 t := rfl

theorem rawOf_cons (body : Text) : rawOf body = '<' :: '!' :: '-' :: '-' :: (body ++ "-->") := by
  rw [rawOf_eq]
  rfl

theorem length_rawOf (body : Text) : (rawOf body).length = body.length + 7 := by
  rw [rawOf_cons]
  simp

theorem countChar_rawOf (body : Text) : (rawOf body).count '\n' = body.count '\n' := by
  rw [rawOf_cons]
  simp

/-- Nor does it begin there, as it has its last character nowhere else. -/
theorem isBody_iff : IsBody body ↔ ¬ ("-->" : Text) <:+: body ++ ("--" : Text) := by
  apply not_congr
  constructor
  · intro h
    exact h.trans (List.prefix_append body _).isInfix
  · intro h
    rcases List.infix_append_iff.mp h with h | h | ⟨x, y, hxy, hx, hy⟩
    · exact h
    · exact absurd h (by decide)
    · cases y using List.reverseRecOn with
      | nil =>
        rw [hxy, List.append_nil]
        exact hx.isInfix
      | append_singleton y c =>
        have hc : c ∈ ("--" : Text) := hy.subset (by simp)
        have hlast := congrArg List.getLast? hxy
        rw [← List.append_assoc, List.getLast?_concat] at hlast
        obtain rfl : '>' = c := Option.some.inj hlast
        exact absurd hc (by decide)

/-! One step -/

theorem atStart_eq_some_iff :
    atStart b t = some (body, k) ↔ IsBody body ∧ rawOf body <+: t ∧ k = body.length + 7 := by
  have hmark : ("-->" : Text) ≠ [] := by decide
  constructor
  · intro h
    unfold atStart at h
    split at h
    · rename_i rest
      obtain ⟨body', hb, he⟩ := Option.map_eq_some_iff.mp h
      obtain ⟨rfl, rfl⟩ := Prod.mk.inj he
      obtain ⟨⟨q, rfl⟩, hfirst⟩ := (Text.before?_eq_some_iff hmark).mp hb
      refine ⟨isBody_iff.mpr hfirst, ⟨q, ?_⟩, rfl⟩
      rw [rawOf_cons]
      rfl
    · cases h
  · rintro ⟨hb, ⟨q, rfl⟩, rfl⟩
    have hbefore : Text.before? "-->" (body ++ "-->" ++ q) = some body :=
      (Text.before?_eq_some_iff hmark).mpr ⟨List.prefix_append _ q, isBody_iff.mp hb⟩
    rw [rawOf_cons]
    exact congrArg (Option.map fun body : Text => (body, body.length + 7)) hbefore

theorem piecesFrom_eq (b : Option Char) (k : Nat) (t : Text) : piecesFrom atStart b k t = pieces atStart (t.drop k) := by
  induction t generalizing b k with
  | nil =>
    rw [List.drop_nil]
    rfl
  | cons c t ih =>
    cases k with
    | zero => rfl
    | succ k =>
      rw [piecesFrom, List.drop_succ_cons]
      exact ih (some c) k

theorem map_hitsFrom (o : Nat) (n : Nat) (ps : List (Piece Text)) :
    (hitsFrom o n ps).map (fun h => (⟨h.value, h.line⟩ : Comment)) = (hitsFrom 0 n ps).map fun h => ⟨h.value, h.line⟩ := by
  induction ps generalizing o n with
  | nil => rfl
  | cons p ps ih =>
    cases p with
    | plain c =>
      rw [hitsFrom, hitsFrom, ih]
      exact (ih 1 _).symm
    | hit a s =>
      rw [hitsFrom, hitsFrom, List.map_cons, List.map_cons, ih, ih (0 + s.length)]

/-- What is open at a start mark is read up to its end. -/
theorem allFrom_comment (hb : IsBody body) (n : Nat) (t : Text) :
    allFrom n (rawOf body ++ t) = ⟨body, n⟩ :: allFrom (n + body.count '\n') t := by
  have hread := (atStart_eq_some_iff (b := none)).mpr ⟨hb, List.prefix_append (rawOf body) t, rfl⟩
  have hpieces : pieces atStart (rawOf body ++ t) = .hit body (rawOf body) :: pieces atStart t := by
    obtain ⟨r, hr, hlen⟩ : ∃ r, rawOf body = '<' :: r ∧ r.length = body.length + 6 := by
      refine ⟨_, rawOf_cons body, ?_⟩
      simp
    rw [hr, List.cons_append] at hread ⊢
    rw [pieces, piecesFrom, hread]
    dsimp only
    rw [piecesFrom_eq, List.drop_left' hlen, ← List.cons_append, List.take_left']
    rw [List.length_cons, hlen]
  rw [allFrom, hpieces, hitsFrom, List.map_cons, map_hitsFrom, countChar_rawOf]
  rfl

/-- A character at which no comment opens is passed over. -/
theorem allFrom_plain (hc : atStart none (c :: t) = none) (n : Nat) :
    allFrom n (c :: t) = allFrom (n + [c].count '\n') t := by
  have hpieces : pieces atStart (c :: t) = .plain c :: pieces atStart t := by
    rw [pieces, piecesFrom, hc]
    dsimp only
    rw [piecesFrom_eq]
    rfl
  rw [allFrom, hpieces, hitsFrom, map_hitsFrom, allFrom]
  congr 2
  by_cases hnl : c = '\n'
  · rw [if_pos hnl, hnl]
    rfl
  · rw [if_neg hnl, List.count_singleton, if_neg (by simpa using hnl)]
    rfl

theorem atStart_eq_none (h : ¬ ("<!--" : Text) <+: t) : atStart b t = none := by
  rw [Option.eq_none_iff_forall_ne_some]
  rintro ⟨body, k⟩ hread
  apply h
  obtain ⟨-, hpre, -⟩ := atStart_eq_some_iff.mp hread
  rw [rawOf_eq, List.append_assoc] at hpre
  exact (List.prefix_append _ _).trans hpre

/-- An end mark after a start mark makes a comment of both. -/
theorem exists_rawOf_prefix (h : ("-->" : Text) <:+: r) : ∃ body, IsBody body ∧ rawOf body <+: ("<!--" : Text) ++ r := by
  obtain ⟨body, hbefore⟩ := Text.exists_before? (by decide) h
  obtain ⟨⟨q, rfl⟩, hbody⟩ := (Text.before?_eq_some_iff (by decide)).mp hbefore
  exact ⟨body, isBody_iff.mpr hbody, q, by rw [rawOf_eq, List.append_assoc, List.append_assoc, List.append_assoc]⟩

/-! The whole text -/

/-- A start mark of which a comment has only the rest is none. -/
theorem not_start_append (h : ¬ ("<!--" : Text) <+: c :: t) (hx : ∀ d ∈ x.head?, d = '<') :
    ¬ ("<!--" : Text) <+: c :: (t ++ x) := by
  intro hpre
  rw [← List.cons_append] at hpre
  have hcut : c :: t <+: (c :: t) ++ x := List.prefix_append _ _
  rcases Nat.lt_or_ge (c :: t).length 4 with hlen | hlen
  · -- then `x` goes on inside the mark, where no other `<` stands
    obtain ⟨y, hy⟩ := List.prefix_of_prefix_length_le hcut hpre (by simpa using Nat.le_of_lt hlen)
    cases y with
    | nil =>
      rw [List.append_nil] at hy
      rw [hy] at hlen
      exact absurd hlen (by decide)
    | cons e y =>
      rw [← hy, List.prefix_append_right_inj] at hpre
      obtain ⟨x, rfl⟩ := hpre
      obtain rfl : e = '<' := hx e rfl
      have hin : '<' ∈ ("!--" : Text) := by
        have htail := (List.cons.inj hy).2
        rw [← show t ++ '<' :: y = ("!--" : Text) from htail]
        simp
      exact absurd hin (by decide)
  · exact h (List.prefix_of_prefix_length_le hpre hcut hlen)

theorem head_rawOf (body q : Text) : ∀ d ∈ (rawOf body ++ q).head?, d = '<' := by
  rw [rawOf_cons]
  rintro d ⟨⟩
  rfl

/-- After a text in which all comments are closed the next one is found where it stands. -/
theorem allFrom_append (hp : IsClosed p) (hb : IsBody body) (n : Nat) (q : Text) :
    allFrom n (p ++ (rawOf body ++ q)) =
      allFrom n p ++ ⟨body, n + p.count '\n'⟩ :: allFrom (n + p.count '\n' + body.count '\n') q := by
  induction hp generalizing n with
  | nil => exact allFrom_comment hb n q
  | @plain c t hc _ ih =>
    have hc' := not_start_append hc (head_rawOf body q)
    rw [List.cons_append, allFrom_plain (atStart_eq_none hc'), allFrom_plain (atStart_eq_none hc), ih, Nat.add_assoc n,
      ← List.count_append, List.singleton_append]
  | @comment inner t hi _ ih =>
    rw [List.append_assoc, allFrom_comment hi, allFrom_comment hi, ih, List.cons_append, Nat.add_assoc n, List.count_append,
      countChar_rawOf]

/-- A start mark before an end mark opens a comment. -/
theorem not_start_of_end (hread : atStart b (p ++ r) = none) (hend : ("-->" : Text) <:+: r) : ¬ ("<!--" : Text) <+: p := by
  rintro ⟨s, rfl⟩
  obtain ⟨body, hbody, hpre⟩ := exists_rawOf_prefix (hend.trans (List.suffix_append s r).isInfix)
  rw [← List.append_assoc] at hpre
  cases hread.symm.trans (atStart_eq_some_iff.mpr ⟨hbody, hpre, rfl⟩)

/-- The comments of a text are the bodies between marks of which the first is in no other comment. -/
theorem mem_allFrom_iff : m ∈ allFrom n t ↔ ∃ p q, t = p ++ (rawOf m.body ++ q) ∧ IsClosed p ∧ IsBody m.body ∧
    m.line = n + p.count '\n' := by
  constructor
  · intro hm
    induction hlen : t.length using Nat.strongRecOn generalizing t n with
    | ind len ih =>
      subst hlen
      cases t with
      | nil => cases hm
      | cons c t =>
        cases hread : atStart none (c :: t) with
        | some read =>
          obtain ⟨body, k⟩ := read
          obtain ⟨hb, ⟨r, hr⟩, -⟩ := atStart_eq_some_iff.mp hread
          rw [← hr] at hm ⊢
          rw [allFrom_comment hb] at hm
          rcases List.mem_cons.mp hm with rfl | hm
          · exact ⟨[], r, rfl, .nil, hb, rfl⟩
          · have hshort : r.length < (c :: t).length := by
              rw [← hr, List.length_append, length_rawOf]
              omega
            obtain ⟨p, q, rfl, hp, hb', hline⟩ := ih _ hshort hm rfl
            refine ⟨rawOf body ++ p, q, by rw [List.append_assoc], .comment hb hp, hb', ?_⟩
            rw [hline, List.count_append, countChar_rawOf, Nat.add_assoc]
        | none =>
          rw [allFrom_plain hread] at hm
          obtain ⟨p, q, rfl, hp, hb, hline⟩ := ih _ (Nat.lt_succ_self _) hm rfl
          have hend : ("-->" : Text) <:+: rawOf m.body ++ q := ⟨"<!--" ++ m.body, q, by simp [rawOf_eq]⟩
          rw [← List.cons_append] at hread
          refine ⟨c :: p, q, rfl, .plain (not_start_of_end hread hend) hp, hb, ?_⟩
          rw [hline, Nat.add_assoc, ← List.count_append, List.singleton_append]
  · rintro ⟨p, q, rfl, hp, hb, hline⟩
    obtain ⟨body, line⟩ := m
    obtain rfl : line = n + p.count '\n' := hline
    rw [allFrom_append hp hb]
    exact List.mem_append_right _ List.mem_cons_self

theorem isClosed_of_no_start (h : ¬ ("<!--" : Text) <:+: t) : IsClosed t := by
  induction t with
  | nil => exact .nil
  | cons c t ih =>
    rw [List.infix_cons_iff, not_or] at h
    exact .plain h.1 (ih h.2)

theorem allFrom_of_no_start (h : ¬ ("<!--" : Text) <:+: t) (n : Nat) : allFrom n t = [] := by
  rw [List.eq_nil_iff_forall_not_mem]
  intro m hm
  apply h
  obtain ⟨p, q, rfl, -⟩ := mem_allFrom_iff.mp hm
  exact ⟨p, m.body ++ ("-->" ++ q), by simp [rawOf_eq]⟩

theorem no_start_of_blank (h : ∀ c ∈ t, Text.isBlank c = true) : ¬ ("<!--" : Text) <:+: t := by
  intro hstart
  have hmark : Text.isBlank '<' = true := h '<' (hstart.subset List.mem_cons_self)
  exact absurd hmark (by decide)

/-- The only comment of a text is the one that is put into it. -/
theorem all_of_one (hp : ¬ ("<!--" : Text) <:+: t) (hr : ¬ ("<!--" : Text) <:+: r) (hb : IsBody body) :
    all (t ++ (rawOf body ++ r)) = [⟨body, 1 + t.count '\n'⟩] := by
  rw [all_eq, allFrom_append (isClosed_of_no_start hp) hb, allFrom_of_no_start hp, allFrom_of_no_start hr]
  rfl

/-- A comment is found after a text in which no comment can start. -/
theorem exists_mem_all {p q : Text} (hp : '<' ∉ p) (hb : ¬ ("-->" : Text) <:+: body ++ ("--" : Text)) :
    ∃ c ∈ all (p ++ (rawOf body ++ q)), c.body = body := by
  have hclosed : IsClosed p := isClosed_of_no_start fun hstart => hp (hstart.subset List.mem_cons_self)
  refine ⟨⟨body, 1 + p.count '\n'⟩, ?_, rfl⟩
  rw [all_eq, mem_allFrom_iff]
  exact ⟨p, q, rfl, hclosed, isBody_iff.mpr hb, rfl⟩

/-- What ends no comment leaves one open that was open before. -/
theorem IsClosed.of_append (h : IsClosed (p ++ x)) (hx : ¬ ("-->" : Text) <:+: x) (hhead : ∀ d ∈ x.head?, d = '<') :
    IsClosed p := by
  generalize ht : p ++ x = t at h
  induction h generalizing p with
  | nil =>
    rw [(List.append_eq_nil_iff.mp ht).1]
    exact .nil
  | @plain c t hc _ ih =>
    cases p with
    | nil => exact .nil
    | cons d p =>
      obtain ⟨rfl, rfl⟩ := List.cons.inj ht
      refine .plain (fun hpre => hc ?_) (ih rfl)
      exact hpre.trans (List.prefix_append (d :: p) x)
  | @comment body t hb _ ih =>
    rcases List.append_eq_append_iff.mp ht with ⟨y, hraw, rfl⟩ | ⟨y, rfl, rfl⟩
    · have hend : ("-->" : Text) <:+ rawOf body := ⟨"<!--" ++ body, rfl⟩
      rw [hraw] at hend
      cases y with
      | nil =>
        rw [List.append_nil] at hraw
        rw [← hraw, ← List.append_nil (rawOf body)]
        exact .comment hb .nil
      | cons d y =>
        exfalso
        obtain rfl : d = '<' := hhead d rfl
        rcases List.suffix_or_suffix_of_suffix hend (List.suffix_append p ('<' :: y)) with hin | hin
        · exact hx (hin.isInfix.trans (List.prefix_append _ t).isInfix)
        · exact absurd (hin.subset List.mem_cons_self) (by decide)
    · exact .comment hb (ih rfl)

/-! Comments on lines of their own -/

/-- A comment that starts a line, but for blanks, and after which nothing but blanks stands on its last one. -/
structure IsAlone (t p body q : Text) : Prop where
  text : t = p ++ (rawOf body ++ q)
  before : ∃ u b, p = u ++ b ∧ (∀ c ∈ b, Text.isBlank c = true) ∧ ∀ c ∈ u.getLast?, c = '\n'
  after : ∃ e r, q = e ++ r ∧ (∀ c ∈ e, Text.isBlank c = true) ∧ ∀ c ∈ r.head?, c = '\n'

theorem IsAlone.newline_before (h : IsAlone t p body q) (hp : p = r ++ x) (hx : '<' ∈ x.head?) : '\n' ∈ x := by
  obtain ⟨u, b, hub, hb, hu⟩ := h.before
  obtain ⟨x, rfl⟩ := List.head?_eq_some_iff.mp hx
  have hblank : ∀ y, b ≠ y ++ '<' :: x := by
    intro y hy
    have := hb '<' (by rw [hy]; simp)
    exact absurd this (by decide)
  rcases List.append_eq_append_iff.mp (hub.symm.trans hp) with ⟨y, rfl, hy⟩ | ⟨y, rfl, hy⟩
  · exact (hblank y hy).elim
  · cases y using List.reverseRecOn with
    | nil => exact (hblank [] hy.symm).elim
    | append_singleton y d =>
      obtain rfl : d = '\n' := hu d (by simp)
      rw [hy]
      simp

theorem IsAlone.newline_after (h : IsAlone t p body q) (hq : q = x ++ r) (hr : '<' ∈ r.head?) : '\n' ∈ x := by
  obtain ⟨e, s, hes, he, hs⟩ := h.after
  obtain ⟨r, rfl⟩ := List.head?_eq_some_iff.mp hr
  rcases List.append_eq_append_iff.mp (hes.symm.trans hq) with ⟨y, rfl, hy⟩ | ⟨y, rfl, hy⟩
  · cases y with
    | nil => exact absurd (hs '<' (by rw [hy]; rfl)) (by decide)
    | cons d y =>
      obtain rfl : d = '\n' := hs d (by rw [hy]; rfl)
      simp
  · cases y with
    | nil => exact absurd (hs '<' (by rw [← List.nil_append s, ← hy]; rfl)) (by decide)
    | cons d y =>
      obtain ⟨rfl, -⟩ := List.cons.inj hy
      exact absurd (he '<' (by simp)) (by decide)

/-- The start mark has no part in the end mark where something else follows it. -/
theorem IsBody.no_end (hb : IsBody body) (hhead : ∃ d ∈ body.head?, d ≠ '>' ∧ d ≠ '-') :
    ¬ ("-->" : Text) <:+: "<!--" ++ (body ++ "--") := by
  intro h
  obtain ⟨d, hd, hne⟩ := hhead
  obtain ⟨body, rfl⟩ := List.head?_eq_some_iff.mp hd
  rcases List.infix_append_iff.mp h with h | h | ⟨y, z, hyz, hy, hz⟩
  · exact absurd h (by decide)
  · exact isBody_iff.mp hb h
  · cases z with
    | nil =>
      rw [List.append_nil] at hyz
      rw [← hyz] at hy
      exact absurd hy (by decide)
    | cons e z =>
      obtain ⟨rfl, -⟩ := List.cons_prefix_cons.mp hz
      have he : e ∈ ("-->" : Text) := by
        rw [hyz]
        simp
      have he : e = '-' ∨ e = '-' ∨ e = '>' := by simpa using he
      rcases he with he | he | he
      · exact hne.2 he
      · exact hne.2 he
      · exact hne.1 he

/-- Before a comment on lines of its own none is open if none is open further on in its first line. -/
theorem IsAlone.isClosed_of_later {q' : Text} (h : IsAlone t p body q) (hhead : ∃ d ∈ body.head?, d ≠ '>' ∧ d ≠ '-')
    (hb : IsBody body) (hp : IsClosed (p ++ x)) (hx : rawOf body ++ q = x ++ (rawOf body ++ q')) (hnl : '\n' ∉ x) :
    IsClosed p := by
  cases x with
  | nil => rwa [List.append_nil] at hp
  | cons c x =>
    have hstart : c = '<' := by
      rw [rawOf_cons] at hx
      exact (List.cons.inj hx).1.symm
    have hinside : ∀ y, q = y ++ (rawOf body ++ q') → '\n' ∈ y := by
      intro y hy
      apply h.newline_after hy
      rw [rawOf_cons]
      rfl
    rcases List.append_eq_append_iff.mp hx with ⟨y, hxy, hy⟩ | ⟨y, hxy, hy⟩
    · exact (hnl (by rw [hxy]; exact List.mem_append_right _ (hinside y hy))).elim
    · have hshort : c :: x <+: "<!--" ++ (body ++ "--") := by
        cases y using List.reverseRecOn with
        | nil => cases hinside [] hy.symm
        | append_singleton y d =>
          have hraw : rawOf body = "<!--" ++ (body ++ "--") ++ ['>'] := by simp [rawOf_eq]
          rw [hraw, ← List.append_assoc (c :: x)] at hxy
          exact ⟨y, (List.append_inj_left' hxy rfl).symm⟩
      apply hp.of_append (fun hend => hb.no_end hhead (hend.trans hshort.isInfix))
      rintro d ⟨⟩
      exact hstart

/-- A comment on lines of its own is found exactly where it has no end mark inside and no comment is open before it. -/
theorem IsAlone.mem_all_iff (h : IsAlone t p body q) (hhead : ∃ d ∈ body.head?, d ≠ '>' ∧ d ≠ '-') :
    ⟨body, 1 + p.count '\n'⟩ ∈ Comment.all t ↔ IsClosed p ∧ IsBody body := by
  rw [all_eq, mem_allFrom_iff]
  constructor
  · rintro ⟨p', q', ht, hp, hb, hline⟩
    refine ⟨?_, hb⟩
    have hcount : p.count '\n' = p'.count '\n' := Nat.add_left_cancel hline
    rcases List.append_eq_append_iff.mp (h.text.symm.trans ht) with ⟨x, rfl, hx⟩ | ⟨x, rfl, hx⟩
    · rw [List.count_append] at hcount
      exact h.isClosed_of_later hhead hb hp hx (List.count_eq_zero.mp (by omega))
    · cases x with
      | nil => rwa [List.append_nil]
      | cons c x =>
        exfalso
        have hstart : c = '<' := by
          rw [rawOf_cons] at hx
          exact (List.cons.inj hx).1.symm
        have hnl := h.newline_before rfl (x := c :: x) (by rw [hstart]; rfl)
        rw [List.count_append] at hcount
        have := List.count_pos_iff.mpr hnl
        omega
  · rintro ⟨hp, hb⟩
    exact ⟨p, q, h.text, hp, hb, rfl⟩

end Comment
end Runbook
