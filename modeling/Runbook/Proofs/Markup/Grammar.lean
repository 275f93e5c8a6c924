import Runbook.Proofs.Markup.Segment

/-!
The tokens of a text as a whole. They are the lines of the text in order, in whole blocks; so a builder that goes from one
block to the next never comes to a line that belongs to the inside or the end of a block, and between the two ends of a
block nothing that a line looks like matters.
-/
namespace Runbook

/-- The kinds of lines that only a block which is open already can have. -/
def TokenKind.isContinuation : TokenKind → Bool
  | .fenceClose | .codeLine | .commentLine | .commentClose => true
  | .heading | .fenceOpen | .comment | .commentOpen | .listItem | .paragraph | .blank => false

namespace Markup

variable {mode : Mode} {n i : Nat} {l : Text} {ls : List Text} {j k : Token} {ks post ps : List Token} {o b c : TokenKind}
  {closes : Text → Bool}

/-! Where the builder stands -/

/-- Where the builder stands on its way through some tokens: at their start, and after every block that it has read. -/
inductive Reaches (ks : List Token) : List Token → Prop
  | start : Reaches ks ks
  | next {k : Token} {post : List Token} (h : Reaches ks (k :: post)) : Reaches ks (restAfter k post)

/-- The blocks are those that the builder has read on its way, and those of what is left. -/
theorem Reaches.exists_blocks (h : Reaches ks ps) : ∃ ns, blocks ks = ns ++ blocks ps := by
  induction h with
  | start => exact ⟨[], rfl⟩
  | @next k post _ ih =>
    obtain ⟨ns, hns⟩ := ih
    refine ⟨ns ++ (blockAt k post).toList, ?_⟩
    rw [hns, blocks_cons, List.append_assoc]

theorem Reaches.isStream (h : Reaches ks ps) (hks : IsStream ks) : IsStream ps := by
  induction h with
  | start => exact hks
  | next _ ih => exact ih.restAfter

/-- Whole blocks start with no line of a block that was not opened. -/
theorem IsStream.not_isContinuation (h : IsStream (k :: ks)) : k.kind.isContinuation = false := by
  rcases h.cons_cases with ⟨hk, -⟩ | ⟨hk, -⟩ | ⟨hk, -⟩
  · cases hkind : k.kind <;> rw [hkind] at hk <;> first | rfl | cases hk
  · rw [hk]
    rfl
  · rw [hk]
    rfl

/-! Inside a block -/

/-- Whether a line closes the block that the token opens. -/
def isClosedBy (k : Token) (l : Text) : Bool :=
  if k.kind = .fenceOpen then closesFence k.marker l else l.includes commentEnd

/-- The mode lasts up to the first line that closes the block, and every line before it is of the one kind. -/
structure Mode.Holds (mode : Mode) (b c : TokenKind) (closes : Text → Bool) : Prop where
  inside : ∀ n l, closes l = false → readLine mode n l = ({ kind := b, line := n, text := l }, mode)
  closing : ∀ n l, closes l = true → (readLine mode n l).1.kind = c

theorem holds_code (marker : Text) : (Mode.code marker).Holds .codeLine .fenceClose (closesFence marker) := by
  constructor
  · intro n l hl
    rw [readLine, hl, if_neg (by simp)]
  · intro n l hl
    rw [readLine, hl, if_pos rfl]

theorem holds_comment : Mode.comment.Holds .commentLine .commentClose (·.includes commentEnd) := by
  constructor
  · intro n l hl
    rw [readLine, if_neg (by simp [hl])]
  · intro n l hl
    rw [readLine, if_pos hl]

/-- A line that opens a block brings the reader into the mode of that block. -/
theorem holds_of_opening (hd : Delimits o b c) (hk : (readLine mode n l).1.kind = o) :
    (readLine mode n l).2.Holds b c (isClosedBy (readLine mode n l).1) := by
  have hout : mode = .outside := by
    cases mode with
    | outside => rfl
    | code marker =>
      simp only [readLine] at hk
      split at hk <;> subst hk <;> cases hd
    | comment =>
      simp only [readLine] at hk
      split at hk <;> subst hk <;> cases hd
  subst hout
  rw [readLine] at hk ⊢
  rcases readOutside_cases n l with ⟨hkind, -⟩ | ⟨marker, info, -, hread⟩ | ⟨hkind, hmode⟩
  · rw [hk] at hkind
    cases hd <;> cases hkind
  · rw [hread] at hk ⊢
    subst hk
    cases hd
    exact holds_code marker
  · have hcloses : isClosedBy (readOutside n l).1 = (·.includes commentEnd) := by
      funext x
      rw [isClosedBy, hkind, if_neg (by decide)]
    rw [hkind] at hk
    subst hk
    cases hd
    rw [hmode, hcloses]
    exact holds_comment

/-- Up to the first line that closes the block, the mode is the one at its start. -/
theorem Mode.Holds.getElem? (hm : mode.Holds b c closes) (hl : ls[i]? = some l)
    (hopen : ∀ x ∈ ls.take i, closes x = false) (n : Nat) :
    (readLines mode n ls)[i]? = some (readLine mode (n + i) l).1 := by
  induction ls generalizing i n with
  | nil => cases hl
  | cons x ls ih =>
    cases i with
    | zero =>
      cases hl
      rfl
    | succ i =>
      rw [List.take_succ_cons, List.forall_mem_cons] at hopen
      rw [readLines, hm.inside n x hopen.1, List.getElem?_cons_succ, ih hl hopen.2 (n + 1), Nat.add_right_comm,
        Nat.add_assoc]

/-- A token of the stream was read off its line, and the tokens after it in the mode that this line has left. -/
theorem exists_of_getElem? (h : (readLines mode n ls)[i]? = some k) : ∃ as l bs mode', ls = as ++ l :: bs ∧
    as.length = i ∧ k = (readLine mode' (n + i) l).1 ∧
    (readLines mode n ls).drop (i + 1) = readLines (readLine mode' (n + i) l).2 (n + i + 1) bs := by
  induction ls generalizing mode n i with
  | nil => cases h
  | cons l ls ih =>
    cases i with
    | zero =>
      cases h
      exact ⟨[], l, ls, mode, rfl, rfl, rfl, rfl⟩
    | succ i =>
      rw [readLines, List.getElem?_cons_succ] at h
      obtain ⟨as, x, bs, mode', rfl, rfl, hk, hrest⟩ := ih h
      have hn : n + 1 + as.length = n + (as.length + 1) := by omega
      rw [hn] at hk hrest
      exact ⟨l :: as, x, bs, mode', rfl, rfl, hk, hrest⟩

theorem exists_inside (hd : Delimits o b c) {p q : Nat} (hk : (readLines mode n ls)[p]? = some k) (ho : k.kind = o)
    (hpq : p < q) (hl : ls[q]? = some l) (hopen : ∀ x ∈ (ls.take q).drop (p + 1), isClosedBy k x = false) :
    ∃ j, (readLines mode n ls)[q]? = some j ∧ if isClosedBy k l then j.kind = c else j.kind = b ∧ j.text = l := by
  obtain ⟨as, x, bs, mode', rfl, rfl, rfl, hrest⟩ := exists_of_getElem? hk
  have hholds := holds_of_opening hd ho
  obtain ⟨i, rfl⟩ : ∃ i, q = as.length + 1 + i := ⟨q - (as.length + 1), by omega⟩
  have hbs : ∀ d : Nat, (as ++ x :: bs)[as.length + 1 + d]? = bs[d]? := by
    intro d
    rw [List.getElem?_append_right (by omega), show as.length + 1 + d - as.length = d + 1 by omega,
      List.getElem?_cons_succ]
  have htake : ((as ++ x :: bs).take (as.length + 1 + i)).drop (as.length + 1) = bs.take i := by
    rw [List.drop_take, Nat.add_sub_cancel_left, show as ++ x :: bs = (as ++ [x]) ++ bs by simp,
      show as.length + 1 = (as ++ [x]).length by simp, List.drop_left]
  rw [hbs] at hl
  rw [htake] at hopen
  have hread := hholds.getElem? hl hopen (n + as.length + 1)
  rw [← hrest, List.getElem?_drop] at hread
  refine ⟨_, hread, ?_⟩
  split
  · rename_i hclosed
    exact hholds.closing _ l hclosed
  · rename_i hclosed
    rw [hholds.inside _ l (by simpa using hclosed)]
    exact ⟨rfl, rfl⟩

/-! The whole stream -/

/-- Tokens of a text as they have to be. -/
structure IsTokenized (t : Text) (ks : List Token) : Prop where
  /-- There is one token for each line. -/
  length : ks.length = t.lines.length
  numbers : ks.map (·.line) = (List.range (t.count '\n' + 1)).map fun i : Nat => 1 + (i : Int)
  /-- The kinds are those of whole blocks. -/
  stream : IsStream ks
  /-- The builder never stands at a line of a block that was not opened. -/
  built : ∀ ps, Reaches ks ps →
    (∃ ns, (rootOf ks).children = ns ++ blocks ps) ∧ ∀ k ∈ ps.head?, k.kind.isContinuation = false
  /-- From the line that opens a block on, each line up to the first that closes it is kept as it is. -/
  inside : ∀ o b c, Delimits o b c → ∀ (p q : Nat) (k : Token) (l : Text), ks[p]? = some k → k.kind = o → p < q →
    t.lines[q]? = some l → (∀ x ∈ (t.lines.take q).drop (p + 1), isClosedBy k x = false) →
    ∃ j, ks[q]? = some j ∧ if isClosedBy k l then j.kind = c else j.kind = b ∧ j.text = l

/-- The tokens of any text are one for each line, numbered from 1, in whole blocks of which only the last may lack its end;
no line stands where the builder cannot use it, and no line inside a block is anything but its content. -/
theorem isTokenized_tokenize (t : Text) : IsTokenized t (tokenize t) := by
  have hlength : (tokenize t).length = t.lines.length := length_readLines ..
  have hstream := isStream_tokenize t
  constructor
  case length => exact hlength
  case numbers =>
    have hnumbered : Numbered 1 (tokenize t) := numbered_readLines .outside 1 t.lines
    rw [hnumbered.map_line, hlength, Text.length_lines]
  case stream => exact hstream
  case built =>
    intro ps hps
    refine ⟨hps.exists_blocks, fun k hk => ?_⟩
    obtain ⟨post, rfl⟩ := List.head?_eq_some_iff.mp hk
    exact (hps.isStream hstream).not_isContinuation
  case inside =>
    intro o b c hd p q k l hk ho hpq hl hopen
    exact exists_inside hd hk ho hpq hl hopen

end Markup
end Runbook
