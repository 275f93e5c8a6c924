import Runbook.Proofs.Markup.Reading

/-!
The tokens of a text are whole blocks: a line of its own, or an opening line, the lines inside and a closing one. The last
block may lack its closing line.
-/
namespace Runbook

/-- The kinds of lines that stand on their own. -/
def TokenKind.isOutside : TokenKind → Bool
  | .heading | .comment | .listItem | .paragraph | .blank => true
  | .fenceOpen | .fenceClose | .codeLine | .commentOpen | .commentLine | .commentClose => false

namespace Markup

variable {mode : Mode} {n : Nat} {l t : Text} {ls : List Text} {j k : Token} {ks ps body rest : List Token}
  {o i c : TokenKind}

/-- What opens a block, what stands inside of it, and what closes it. -/
inductive Delimits : TokenKind → TokenKind → TokenKind → Prop
  | code : Delimits .fenceOpen .codeLine .fenceClose
  | comment : Delimits .commentOpen .commentLine .commentClose

inductive IsStream : List Token → Prop
  | nil : IsStream []
  | line {k : Token} {ks : List Token} (hk : k.kind.isOutside = true) (h : IsStream ks) : IsStream (k :: ks)
  | block {o i c : TokenKind} {k j : Token} {body ks : List Token} (hd : Delimits o i c) (hk : k.kind = o)
      (hb : ∀ x ∈ body, x.kind = i) (hj : j.kind = c) (h : IsStream ks) : IsStream (k :: (body ++ j :: ks))
  | unclosed {o i c : TokenKind} {k : Token} {body : List Token} (hd : Delimits o i c) (hk : k.kind = o)
      (hb : ∀ x ∈ body, x.kind = i) : IsStream (k :: body)

/-- The lines inside a block, and all that comes after it. -/
inductive IsTail (i c : TokenKind) : List Token → Prop
  | unclosed {body : List Token} (hb : ∀ x ∈ body, x.kind = i) : IsTail i c body
  | closed {j : Token} {body ks : List Token} (hb : ∀ x ∈ body, x.kind = i) (hj : j.kind = c) (h : IsStream ks) :
      IsTail i c (body ++ j :: ks)

theorem IsTail.push (h : IsTail i c ks) (hk : k.kind = i) : IsTail i c (k :: ks) := by
  cases h with
  | unclosed hb => exact .unclosed (List.forall_mem_cons.mpr ⟨hk, hb⟩)
  | closed hb hj h =>
    rw [← List.cons_append]
    exact .closed (List.forall_mem_cons.mpr ⟨hk, hb⟩) hj h

theorem IsTail.isStream (h : IsTail i c ks) (hd : Delimits o i c) (hk : k.kind = o) : IsStream (k :: ks) := by
  cases h with
  | unclosed hb => exact .unclosed hd hk hb
  | closed hb hj h => exact .block hd hk hb hj h

/-- What the tokens are that a reader writes from a mode on. -/
def Mode.Writes : Mode → List Token → Prop
  | .outside, ks => IsStream ks
  | .code _, ks => IsTail .codeLine .fenceClose ks
  | .comment, ks => IsTail .commentLine .commentClose ks

/-- Outside, a line stands on its own or opens a block. -/
theorem readOutside_cases (n : Nat) (l : Text) :
    ((readOutside n l).1.kind.isOutside = true ∧ (readOutside n l).2 = .outside) ∨
    (∃ marker info, fenceOpening? l = some (marker, info) ∧
      readOutside n l = ({ kind := .fenceOpen, line := n, info, marker }, .code marker)) ∨
    ((readOutside n l).1.kind = .commentOpen ∧ (readOutside n l).2 = .comment) := by
  fun_cases readOutside n l
  case case1 marker info h => exact .inr (.inl ⟨marker, info, h, rfl⟩)
  case case3 => exact .inr (.inr ⟨rfl, rfl⟩)
  all_goals exact .inl ⟨rfl, rfl⟩

theorem writes_step (h : (readLine mode n l).2.Writes ks) : mode.Writes ((readLine mode n l).1 :: ks) := by
  cases mode with
  | outside =>
    rw [readLine] at h ⊢
    rcases readOutside_cases n l with ⟨hk, hm⟩ | ⟨marker, info, -, hr⟩ | ⟨hk, hm⟩
    · rw [hm] at h
      exact IsStream.line hk h
    · rw [hr] at h ⊢
      exact IsTail.isStream h .code rfl
    · rw [hm] at h
      exact IsTail.isStream h .comment hk
  | code marker =>
    cases hc : closesFence marker l with
    | true =>
      rw [readLine, hc, if_pos rfl] at h ⊢
      exact IsTail.closed (List.forall_mem_nil _) rfl h
    | false =>
      rw [readLine, hc, if_neg (by simp)] at h ⊢
      exact IsTail.push h rfl
  | comment =>
    cases hc : l.includes commentEnd with
    | true =>
      rw [readLine, hc, if_pos rfl] at h ⊢
      exact IsTail.closed (List.forall_mem_nil _) rfl h
    | false =>
      rw [readLine, hc, if_neg (by simp)] at h ⊢
      exact IsTail.push h rfl

theorem writes_readLines (mode : Mode) (n : Nat) (ls : List Text) : mode.Writes (readLines mode n ls) := by
  induction ls generalizing mode n with
  | nil =>
    cases mode with
    | outside => exact .nil
    | code _ => exact IsTail.unclosed (by simp [readLines])
    | comment => exact IsTail.unclosed (by simp [readLines])
  | cons l ls ih => exact writes_step (ih _ _)

theorem isStream_tokenize (t : Text) : IsStream (tokenize t) := writes_readLines .outside 1 t.lines

/-! Numbers of lines -/

/-- Tokens in a row, of which the first has number `a`. -/
def Numbered (a : Int) : List Token → Prop
  | [] => True
  | k :: ks => k.line = a ∧ Numbered (a + 1) ks

theorem readLine_line (mode : Mode) (n : Nat) (l : Text) : (readLine mode n l).1.line = n := by
  cases mode with
  | outside =>
    rw [readLine]
    fun_cases readOutside n l <;> rfl
  | code marker =>
    rw [readLine]
    split <;> rfl
  | comment =>
    rw [readLine]
    split <;> rfl

theorem numbered_readLines (mode : Mode) (n : Nat) (ls : List Text) : Numbered n (readLines mode n ls) := by
  induction ls generalizing mode n with
  | nil => trivial
  | cons l ls ih => exact ⟨readLine_line mode n l, ih _ (n + 1)⟩

theorem length_readLines (mode : Mode) (n : Nat) (ls : List Text) : (readLines mode n ls).length = ls.length := by
  induction ls generalizing mode n with
  | nil => rfl
  | cons l ls ih => rw [readLines, List.length_cons, List.length_cons, ih]

variable {a : Int}

theorem numbered_append : Numbered a (ks ++ ps) ↔ Numbered a ks ∧ Numbered (a + ks.length) ps := by
  induction ks generalizing a with
  | nil => simp [Numbered]
  | cons k ks ih =>
    rw [List.cons_append, Numbered, Numbered, ih, List.length_cons, and_assoc]
    rw [show a + 1 + (ks.length : Int) = a + ((ks.length + 1 : Nat) : Int) by omega]

theorem Numbered.bounds (h : Numbered a ks) (hk : k ∈ ks) : a ≤ k.line ∧ k.line < a + ks.length := by
  induction ks generalizing a with
  | nil => cases hk
  | cons j ks ih =>
    obtain ⟨hj, hks⟩ := h
    rw [List.length_cons]
    rcases List.mem_cons.mp hk with rfl | hk
    · omega
    · have := ih hks hk
      omega

theorem Numbered.map_line (h : Numbered a ks) : ks.map (·.line) = (List.range ks.length).map fun i : Nat => a + (i : Int) := by
  induction ks generalizing a with
  | nil => rfl
  | cons k ks ih =>
    obtain ⟨hk, hks⟩ := h
    rw [List.map_cons, List.length_cons, List.range_succ_eq_map, List.map_cons, List.map_map, hk, ih hks]
    congr 1
    · simp
    · refine List.map_congr_left fun i _ => ?_
      rw [Function.comp_apply]
      omega

end Markup
end Runbook
