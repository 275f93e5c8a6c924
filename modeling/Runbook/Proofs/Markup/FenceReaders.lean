import Runbook.Proofs.Markup.Block
import Runbook.Proofs.Markup.ClosingLine
import Runbook.Proofs.Markup.Stream
import Runbook.Markup.Fence

/-!
The two readers of fenced blocks, one over the lines of a text and one over its raw lines, find the same blocks where
spaces and line ends are the only blanks of the text. The blocks are compared by line, language and content.
-/
namespace Runbook

open Text (isBlank dropFinal joinLines splitAt unixLines)

/-- A code block by the number of its first line, its language in lower case, and its content. -/
abbrev CodeEntry := Int × Text × Text

def Fence.entry (f : Fence) : CodeEntry := (f.line, f.lang, f.content)

def Node.asCode? (n : Node) : Option CodeEntry :=
  match n.kind with
  | .code lang _ value => n.position.map fun p => (p.start.line, (lang.getD []).lower, value)
  | _ => none

namespace Markup

/-- The mode that a reader has reached after some lines. -/
def modeAfter (mode : Mode) (n : Nat) : List Text → Mode
  | [] => mode
  | l :: ls => modeAfter (readLine mode n l).2 (n + 1) ls

/-- A text in which spaces and line ends are the only blanks, and a carriage return stands before a line feed only. -/
structure IsPlain (t : Text) : Prop where
  blanks : ∀ c ∈ t, isBlank c = true → c = ' ' ∨ c = '\n' ∨ c = '\r'
  returns : ∀ s ∈ t.tails, s.head? = some '\r' → s.tail.head? = some '\n'

/-- A raw line in which spaces are the only blanks, but for a carriage return at its end. -/
def IsPlainLine (r : Text) : Prop := ∀ c ∈ dropFinal '\r' r, isBlank c = true → c = ' '

variable {t r l info marker : Text} {rs ls : List Text} {k : Token} {ks taken : List Token} {node : Node} {b : OpenBlock}
  {mode : Mode} {n : Nat}

/-! Code blocks of a tree, by their opening tokens -/

def openEntry (k : Token) (lines : List Text) : CodeEntry :=
  (k.line, (k.info.cut ' ').1.lower, joinLines lines)

/-- One entry for each opening fence among the tokens. -/
def codeEntries : List Token → List CodeEntry
  | [] => []
  | k :: ks => if k.kind = .fenceOpen then openEntry k (codeRun k.line ks).lines :: codeEntries ks else codeEntries ks

theorem codeEntries_append (h : ∀ x ∈ taken, x.kind ≠ .fenceOpen) (ks : List Token) :
    codeEntries (taken ++ ks) = codeEntries ks := by
  induction taken with
  | nil => rfl
  | cons k taken ih =>
    obtain ⟨hk, htaken⟩ := List.forall_mem_cons.mp h
    rw [List.cons_append, codeEntries, if_neg hk, ih htaken]

theorem getD_nonempty (t : Text) : (nonempty t).getD [] = t := by
  cases t <;> rfl

theorem asCode?_codeNode (k : Token) (r : Run) : (codeNode k r).asCode? = some (openEntry k r.lines) := by
  have hlang := getD_nonempty (k.info.cut ' ').1
  rw [openEntry, ← hlang]
  rfl

/-- Only the node of a block itself can be a code block. -/
theorem filterMap_subtree_blockAt (h : blockAt k ks = some node) :
    node.subtree.filterMap Node.asCode? =
      if k.kind = .fenceOpen then [openEntry k (codeRun k.line ks).lines] else [] := by
  unfold blockAt at h
  cases hk : k.kind <;> rw [hk] at h <;> cases h
  case fenceOpen =>
    rw [if_pos rfl]
    exact List.filterMap_cons_some (asCode?_codeNode k _)
  case listItem =>
    rw [listNode, Node.subtree, List.filterMap_cons_none rfl]
    have hitems : ∀ js : List Token, (Node.subtrees (js.map itemNode)).filterMap Node.asCode? = [] := by
      intro js
      induction js with
      | nil => rfl
      | cons j js ih =>
        rw [List.map_cons, Node.subtrees, List.filterMap_append, ih]
        rfl
    exact hitems _
  all_goals rfl

theorem filterMap_blocks (ks : List Token) :
    (Node.subtrees (blocks ks)).filterMap Node.asCode? = codeEntries ks := by
  induction hn : ks.length using Nat.strongRecOn generalizing ks with
  | ind m ih =>
    cases ks with
    | nil =>
      rw [blocks]
      rfl
    | cons k ks =>
      obtain ⟨taken, hks, htaken⟩ := restAfter_taken k ks
      have hlt := (restAfter_suffix k ks).length_le
      rw [List.length_cons] at hn
      have hrest : codeEntries (restAfter k ks) = codeEntries ks := by
        conv_rhs => rw [hks, codeEntries_append htaken]
      have hih := ih _ (by omega) (restAfter k ks) rfl
      rw [blocks_cons, codeEntries]
      cases hb : blockAt k ks with
      | none =>
        have hk : k.kind ≠ .fenceOpen := by
          intro hk
          rw [blockAt, hk] at hb
          cases hb
        rw [if_neg hk, ← hrest]
        exact hih
      | some n =>
        rw [Option.toList_some, List.singleton_append, Node.subtrees, List.filterMap_append,
          filterMap_subtree_blockAt hb, hih, hrest]
        split <;> rfl

theorem filterMap_treeOf (t : Text) : (treeOf t).subtree.filterMap Node.asCode? = codeEntries (tokenize t) := by
  rw [treeOf, rootOf, Node.subtree, List.filterMap_cons_none rfl, filterMap_blocks]

/-! Content and language of a block -/

theorem unixLines_append (h : '\r' ∉ l) (t : Text) : unixLines (l ++ t) = l ++ unixLines t := by
  induction l with
  | nil => rfl
  | cons c l ih =>
    simp only [List.mem_cons, not_or] at h
    rw [List.cons_append, Text.unixLines_cons fun r hc => (h.1 hc.symm).elim, ih h.2, List.cons_append]

/-- A line end is a line feed, with a carriage return or without. -/
theorem unixLines_raw (h : '\r' ∉ dropFinal '\r' r) (t : Text) :
    unixLines (r ++ '\n' :: t) = dropFinal '\r' r ++ '\n' :: unixLines t := by
  have hfeed : unixLines ('\n' :: t) = '\n' :: unixLines t := Text.unixLines_cons nofun
  rcases Text.eq_or_eq_concat_dropFinal '\r' r with he | he
  · rw [← he] at h ⊢
    rw [unixLines_append h, hfeed]
  · generalize dropFinal '\r' r = l at h he
    rw [he, List.append_assoc, unixLines_append h, List.singleton_append, unixLines]

theorem unixLines_joinLines (hrs : rs ≠ []) (h : ∀ r ∈ rs, '\r' ∉ dropFinal '\r' r) :
    unixLines (joinLines rs ++ ['\n']) = joinLines (rs.map (dropFinal '\r')) ++ ['\n'] := by
  induction rs with
  | nil => exact (hrs rfl).elim
  | cons r rs ih =>
    obtain ⟨hr, hall⟩ := List.forall_mem_cons.mp h
    by_cases hne : rs = []
    · subst hne
      exact unixLines_raw hr []
    · have hjoin : ∀ xs : List Text, xs ≠ [] → ∀ x, joinLines (x :: xs) = x ++ '\n' :: joinLines xs := by
        intro xs hxs x
        rw [joinLines, Text.join_cons hxs, List.append_assoc, List.singleton_append]
        rfl
      rw [List.map_cons, hjoin rs hne, hjoin _ (by simpa using hne), List.append_assoc, List.cons_append,
        unixLines_raw hr, ih hne hall, List.append_assoc, List.cons_append]

theorem no_return_joinLines (h : ∀ l ∈ ls, '\r' ∉ l) : '\r' ∉ joinLines ls := by
  induction ls with
  | nil => simp [joinLines, Text.join]
  | cons l ls ih =>
    obtain ⟨hl, hls⟩ := List.forall_mem_cons.mp h
    by_cases hne : ls = []
    · subst hne
      exact hl
    · have hrest := ih hls
      rw [joinLines] at hrest
      rw [joinLines, Text.join_cons hne]
      simp [hl, hrest]

/-- The content of a closed block is its lines, whatever their line ends were. -/
theorem content_finish (h : ∀ r ∈ b.lines, '\r' ∉ dropFinal '\r' r) :
    (b.finish true).content = joinLines (b.lines.reverse.map (dropFinal '\r')) := by
  have hrev : ∀ r ∈ b.lines.reverse, '\r' ∉ dropFinal '\r' r := fun r hr => h r (List.mem_reverse.mp hr)
  have hno : '\r' ∉ joinLines (b.lines.reverse.map (dropFinal '\r')) :=
    no_return_joinLines fun l hl => by
      obtain ⟨r, hr, rfl⟩ := List.mem_map.mp hl
      exact hrev r hr
  unfold OpenBlock.finish
  dsimp only
  by_cases hne : b.lines = []
  · rw [if_neg (by simp [hne]), hne]
    rfl
  · rw [if_pos ⟨rfl, hne⟩, blockContent, unixLines_joinLines (by simpa using hne) hrev, Text.dropFinal_concat]
    refine Text.dropFinal_of_ne fun d hd => ?_
    rintro rfl
    exact hno (List.mem_of_mem_getLast? hd)

theorem no_return (h : IsPlainLine r) : '\r' ∉ dropFinal '\r' r :=
  fun hr => absurd (h '\r' hr rfl) (by decide)

/-- Where spaces are the only blanks, the first word ends at the first space. -/
theorem cut_eq_firstWord (h : ∀ c ∈ t, isBlank c = true → c = ' ') (hhead : ∀ c ∈ t.head?, isBlank c = false) :
    (t.cut ' ').1 = t.firstWord := by
  rcases Text.cut_space_cases hhead with ⟨-, hword, -⟩ | ⟨hnot, -⟩
  · exact hword
  · exact (hnot fun c hc => h c (List.mem_of_find?_eq_some hc) (List.find?_some hc)).elim

theorem isPlainLine_of_mem (h : IsPlain t) (hr : r ∈ splitAt '\n' t) : IsPlainLine r := by
  obtain ⟨p, q, rfl, hfeed, -, hq⟩ := Text.mem_splitAt_iff.mp hr
  have hdrop := Text.eq_or_eq_concat_dropFinal '\r' r
  intro c hc hblank
  have hmem : c ∈ r := by
    rcases hdrop with he | he <;> rw [he]
    · exact hc
    · exact List.mem_append_left _ hc
  rcases h.blanks c (by simp [hmem]) hblank with rfl | rfl | rfl
  · rfl
  · exact (hfeed hmem).elim
  · -- a carriage return inside the line would stand before one of its own characters
    obtain ⟨u, v, hv⟩ := List.append_of_mem hc
    have hnext : ∀ w, r = u ++ '\r' :: w → w ≠ [] → False := by
      rintro w rfl hw
      obtain ⟨d, w, rfl⟩ := List.exists_cons_of_ne_nil hw
      have hd := h.returns ('\r' :: (d :: w ++ q)) ((List.mem_tails _ _).mpr ⟨p ++ u, by simp⟩) rfl
      obtain rfl : d = '\n' := Option.some_inj.mp hd
      simp at hfeed
    rcases hdrop with he | he
    · rw [hv] at he
      by_cases hw : v = []
      · subst hw
        rw [he, Text.dropFinal_concat] at hv
        simp at hv
      · exact (hnext v he hw).elim
    · rw [hv, List.append_assoc, List.cons_append] at he
      exact (hnext _ he (by simp)).elim

/-- Both readers find the same language in the info of an opening line. -/
theorem cut_info (hr : IsPlainLine r) (h : fenceOpening? r = some (marker, info)) :
    (info.cut ' ').1 = info.firstWord := by
  rw [← fenceOpening?_dropFinal] at h
  obtain ⟨indent, rest, hl, -, -, -, rfl, -⟩ := fenceOpening?_eq_some_iff.mp h
  refine cut_eq_firstWord (fun c hc => hr c ?_) (Text.head_trim isBlank rest)
  rw [hl]
  exact List.mem_append_right _ (List.mem_append_right _ ((Text.strip_infix rest).subset hc))

/-! Both readers, line by line -/

/-- From a mode on, no comment of several lines opens, and no code block is left open. -/
structure IsTame (mode : Mode) (n : Nat) (ls : List Text) : Prop where
  noComment : ∀ k ∈ readLines mode n ls, k.kind ≠ .commentOpen
  closed : ∀ marker, modeAfter mode n ls ≠ .code marker

theorem IsTame.tail (h : IsTame mode n (l :: ls)) : IsTame (readLine mode n l).2 (n + 1) ls :=
  ⟨fun k hk => h.noComment k (List.mem_cons_of_mem _ hk), h.closed⟩

/-- The entry of an open block with some more lines. -/
def OpenBlock.entry (b : OpenBlock) (lines : List Text) : CodeEntry :=
  (b.line, b.info.firstWord.lower, joinLines (b.lines.reverse.map (dropFinal '\r') ++ lines))

theorem entry_finish (h : ∀ r ∈ b.lines, IsPlainLine r) : (b.finish true).entry = b.entry [] := by
  rw [Fence.entry, content_finish fun r hr => no_return (h r hr), OpenBlock.entry, List.append_nil]
  rfl

theorem OpenBlock.entry_push (b : OpenBlock) (r : Text) (lines : List Text) :
    OpenBlock.entry { b with lines := r :: b.lines } lines = b.entry (dropFinal '\r' r :: lines) := by
  simp [OpenBlock.entry]

/-- In step the readers stay: outside blocks, or in the same block with the same lines read. -/
theorem codeEntries_readLines (hrs : ∀ r ∈ rs, IsPlainLine r) (n : Nat) :
    (IsTame .outside n (rs.map (dropFinal '\r')) →
      codeEntries (readLines .outside n (rs.map (dropFinal '\r'))) = (fencesFrom n none rs).map Fence.entry) ∧
    ∀ (b : OpenBlock) (last : Int), IsMarker b.marker → (∀ r ∈ b.lines, IsPlainLine r) →
      IsTame (.code b.marker) n (rs.map (dropFinal '\r')) →
      b.entry (codeRun last (readLines (.code b.marker) n (rs.map (dropFinal '\r')))).lines ::
        codeEntries (readLines (.code b.marker) n (rs.map (dropFinal '\r'))) =
        (fencesFrom n (some b) rs).map Fence.entry := by
  induction rs generalizing n with
  | nil => exact ⟨fun _ => rfl, fun b _ _ _ h => (h.closed b.marker rfl).elim⟩
  | cons r rs ih =>
    obtain ⟨hr, hrs⟩ := List.forall_mem_cons.mp hrs
    obtain ⟨outside, inside⟩ := ih hrs (n + 1)
    rw [List.map_cons]
    refine ⟨fun h => ?_, fun b last hm hb h => ?_⟩
    · have htail := h.tail
      have hopen := fenceOpening?_dropFinal r
      rw [readLines, codeEntries, fencesFrom]
      rw [readLine] at htail ⊢
      rcases readOutside_cases n (dropFinal '\r' r) with ⟨hk, hmode⟩ | ⟨marker, info, ho, hread⟩ | ⟨hk, -⟩
      · cases ho : fenceOpening? (dropFinal '\r' r) with
        | some o =>
          rw [readOutside, ho] at hk
          cases hk
        | none =>
          rw [hmode] at htail ⊢
          rw [if_neg (by rintro he; rw [he] at hk; cases hk), ← hopen, ho]
          exact outside htail
      · have hmarker : IsMarker marker := by
          obtain ⟨-, -, -, -, hmarker, -⟩ := fenceOpening?_eq_some_iff.mp ho
          exact hmarker
        rw [hread] at htail ⊢
        rw [← hopen, ho]
        dsimp only at htail ⊢
        cases rs with
        | nil => exact (htail.closed marker rfl).elim
        | cons s rs =>
          have hblock := inside ⟨marker, info, n, []⟩ n hmarker (List.forall_mem_nil _) htail
          rw [if_pos rfl, List.isEmpty_cons, if_neg (by simp), ← hblock, openEntry, OpenBlock.entry,
            cut_info hr (hopen ▸ ho)]
          rfl
      · exact (h.noComment _ List.mem_cons_self hk).elim
    · have htail := h.tail
      have hends : endsBlock b.marker r = closesFence b.marker (dropFinal '\r' r) := by
        rw [← endsBlock_dropFinal hm, endsBlock_eq_closesFence hm hr]
      rw [readLines, fencesFrom, hends]
      by_cases hc : closesFence b.marker (dropFinal '\r' r) = true
      · have hread : readLine (.code b.marker) n (dropFinal '\r' r) =
            ({ kind := .fenceClose, line := n }, .outside) := if_pos hc
        rw [hread] at htail ⊢
        rw [if_pos hc, List.map_cons, ← outside htail, entry_finish hb]
        rfl
      · have hread : readLine (.code b.marker) n (dropFinal '\r' r) =
            ({ kind := .codeLine, line := n, text := dropFinal '\r' r }, .code b.marker) := if_neg hc
        rw [hread] at htail ⊢
        rw [if_neg hc, ← inside { b with lines := r :: b.lines } n hm (List.forall_mem_cons.mpr ⟨hr, hb⟩) htail,
          OpenBlock.entry_push]
        rfl

/-- Both readers of a plain text find the same blocks in the same order, where the reader of lines opens no comment of
several lines and leaves no block open. -/
theorem codeEntries_treeOf (hplain : IsPlain t) (hcomment : ∀ k ∈ tokenize t, k.kind ≠ .commentOpen)
    (hclosed : ∀ marker, modeAfter .outside 1 t.lines ≠ .code marker) :
    (treeOf t).subtree.filterMap Node.asCode? = (fences t).map Fence.entry := by
  have hlines := Text.lines_eq_map hplain.returns
  have htame : IsTame .outside 1 t.lines := ⟨hcomment, hclosed⟩
  rw [filterMap_treeOf, tokenize, fences]
  rw [hlines] at htame ⊢
  exact (codeEntries_readLines (fun r hr => isPlainLine_of_mem hplain hr) 1).1 htame

/-- Line ends of both kinds, a block that holds a shorter fence and ends in a blank line, and an empty block. -/
def mixedBlocks : Text :=
  "<!-- a -->\r\n````Python x\r\n```\r\n   a\n\r\n  `````  \r\n- b\n ~~~\n~~~~"

theorem codeEntries_treeOf_mixedBlocks :
    IsPlain mixedBlocks ∧ (∀ k ∈ tokenize mixedBlocks, k.kind ≠ .commentOpen) ∧
      (treeOf mixedBlocks).subtree.filterMap Node.asCode? = (fences mixedBlocks).map Fence.entry ∧
      (fences mixedBlocks).map Fence.entry = ([(2, "python", "```\n   a\n"), (8, [], [])] : List CodeEntry) := by
  have hall : mixedBlocks.all (fun c => !isBlank c || c = ' ' || c = '\n' || c = '\r') = true := by decide +kernel
  have hblanks : ∀ c ∈ mixedBlocks, isBlank c = true → c = ' ' ∨ c = '\n' ∨ c = '\r' := by
    intro c hc hblank
    simpa [hblank, or_assoc] using List.all_eq_true.mp hall c hc
  have hplain : IsPlain mixedBlocks := ⟨hblanks, by decide +kernel⟩
  have hcomment : ∀ k ∈ tokenize mixedBlocks, k.kind ≠ .commentOpen := by decide +kernel
  have hmode : modeAfter .outside 1 mixedBlocks.lines = .outside := by decide +kernel
  refine ⟨hplain, hcomment, codeEntries_treeOf hplain hcomment fun marker => ?_, by decide +kernel⟩
  rw [hmode]
  nofun

end Markup
end Runbook
