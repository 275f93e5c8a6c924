import Runbook.Proofs.Report.Fenced
import Runbook.Proofs.Text.Offset

/-! A text in a fence is one block for the reader of lines too: none of its lines closes the block, and all of them come back. -/
namespace Runbook

open Text (dropFinal ended isBlank joinLines lines unixLines)
open Markup (IsEndRun closesFence codeNode codeRun fenceOpening? nonempty readLines tokenize treeOf)

variable {t l lang marker : Text} {ls : List Text} {body : List Token} {j k : Token}

namespace Text

theorem not_mem_of_mem_lines (h : l ∈ lines t) : '\n' ∉ l := by
  fun_induction lines t generalizing l with
  | case1 => simp_all
  | case2 t ih | case3 t _ ih =>
    rcases List.mem_cons.mp h with rfl | h
    · exact List.not_mem_nil
    · exact ih h
  | case4 c t _ _ hl => exact (lines_ne_nil t hl).elim
  | case5 c t _ hc l' ls hl ih =>
    rcases List.mem_cons.mp h with rfl | h
    · rw [List.mem_cons, not_or]
      exact ⟨Ne.symm hc, ih (hl ▸ List.mem_cons_self)⟩
    · exact ih (hl ▸ List.mem_cons_of_mem l' h)

theorem lines_append_cons (hfeed : '\n' ∉ l) (hreturn : '\r' ∉ l) (b : Text) : lines (l ++ '\n' :: b) = l :: lines b := by
  induction l with
  | nil => simp [lines]
  | cons c l ih =>
    rw [List.mem_cons, not_or] at hfeed hreturn
    rw [List.cons_append, lines, if_neg (Ne.symm hfeed.1), ih hfeed.2 hreturn.2]
    rintro r rfl
    exact (hreturn.1 rfl).elim

/-- A line feed parts the lines before it from those after it, also where it takes a carriage return along. -/
theorem exists_lines_append_cons (a b : Text) :
    ∃ ls, ls ≠ [] ∧ lines (a ++ '\n' :: b) = ls ++ lines b ∧ ended ls = unixLines (a ++ ['\n']) := by
  fun_induction unixLines a with
  | case1 => exact ⟨[[]], List.cons_ne_nil _ _, by simp [lines], by simp [ended, unixLines]⟩
  | case2 t ih =>
    obtain ⟨ls, -, hlines, hended⟩ := ih
    refine ⟨[] :: ls, List.cons_ne_nil _ _, ?_, ?_⟩
    · simp [lines, hlines]
    · simpa [ended, unixLines] using hended
  | case3 c t hcr ih =>
    obtain ⟨ls, hne, hlines, hended⟩ := ih
    by_cases hreturn : c = '\r' ∧ t = []
    · obtain ⟨rfl, rfl⟩ := hreturn
      exact ⟨[[]], List.cons_ne_nil _ _, by simp [lines], by simp [ended, unixLines]⟩
    · have hnext : ∀ r s, c = '\r' → t ++ '\n' :: r = '\n' :: s → False := by
        rintro r s rfl hs
        cases t with
        | nil => exact hreturn ⟨rfl, rfl⟩
        | cons d t =>
          obtain ⟨rfl, -⟩ := List.cons.inj hs
          exact hcr t rfl rfl
      have hunix : unixLines (c :: t ++ ['\n']) = c :: unixLines (t ++ ['\n']) := unixLines_cons (hnext [])
      obtain ⟨l, ls, rfl⟩ := List.exists_cons_of_ne_nil hne
      by_cases hfeed : c = '\n'
      · subst hfeed
        refine ⟨[] :: l :: ls, List.cons_ne_nil _ _, ?_, ?_⟩
        · simp [lines, hlines]
        · rw [hunix, ← hended]
          rfl
      · refine ⟨(c :: l) :: ls, List.cons_ne_nil _ _, ?_, ?_⟩
        · rw [List.cons_append, lines, if_neg hfeed, hlines]
          · rfl
          · exact hnext b
        · rw [hunix, ← hended]
          rfl

end Text

namespace Markup

/-- Lines that do not close a code block are its content. -/
theorem readLines_code (h : ∀ l ∈ ls, closesFence marker l = false) (n : Nat) (rest : List Text) :
    ∃ body, readLines (.code marker) n (ls ++ rest) = body ++ readLines (.code marker) (n + ls.length) rest ∧
      (∀ k ∈ body, k.kind = .codeLine) ∧ body.map (·.text) = ls := by
  induction ls generalizing n with
  | nil => exact ⟨[], rfl, by simp, rfl⟩
  | cons l ls ih =>
    obtain ⟨hl, hls⟩ := List.forall_mem_cons.mp h
    obtain ⟨body, hread, hkind, htext⟩ := ih hls (n + 1)
    have hline : readLine (.code marker) n l = ({ kind := .codeLine, line := n, text := l }, .code marker) := by
      rw [readLine, hl, if_neg (by simp)]
    refine ⟨{ kind := .codeLine, line := n, text := l } :: body, ?_, List.forall_mem_cons.mpr ⟨rfl, hkind⟩, ?_⟩
    · rw [List.cons_append, readLines, hline, hread, List.length_cons, Nat.add_right_comm, Nat.add_assoc,
        List.cons_append]
    · rw [List.map_cons, htext]

theorem codeRun_closed (h : ∀ k ∈ body, k.kind = .codeLine) (hk : k.kind = .fenceClose) (last : Int) (ks : List Token) :
    codeRun last (body ++ k :: ks) = ⟨body.map (·.text), k.line, ks⟩ := by
  induction body generalizing last with
  | nil => rw [List.nil_append, codeRun, hk, List.map_nil]
  | cons j body ih =>
    obtain ⟨hj, hbody⟩ := List.forall_mem_cons.mp h
    rw [List.cons_append, codeRun, hj]
    dsimp only
    rw [ih hbody, Run.push, List.map_cons]

theorem blocks_closed (ho : k.kind = .fenceOpen) (h : ∀ k ∈ body, k.kind = .codeLine) (hj : j.kind = .fenceClose) :
    blocks (k :: (body ++ [j])) = [codeNode k ⟨body.map (·.text), j.line, []⟩] := by
  rw [blocks_cons, blockAt, restAfter, ho]
  dsimp only
  rw [codeRun_closed h hj, blocks]
  rfl

end Markup

namespace Display

/-- Whatever blanks stand around it, no run of backticks in a text is as long as its fence. -/
theorem closesFence_line (h : l <:+: lineBody t) : closesFence (fence t) l = false := by
  rw [Bool.eq_false_iff]
  intro hcloses
  obtain ⟨before, run, rest, rfl, -, hrun, -⟩ := (Markup.closesFence_iff (isMarker_fence t)).mp hcloses
  have hinside : run <:+: lineBody t := (List.infix_append before run rest).trans (by rwa [List.append_assoc])
  have hback : ∀ c ∈ run, isBacktick c = true :=
    fun c hc => decide_eq_true (List.eq_of_mem_replicate (hrun.2 c hc))
  have hshort := length_le_longestRun hback hinside
  have hlong := hrun.1
  rw [fence, Text.repeated, List.length_replicate] at hlong
  omega

theorem closesFence_fence (t : Text) : closesFence (fence t) (fence t) = true := by
  refine (Markup.closesFence_iff (isMarker_fence t)).mpr
    ⟨[], fence t, [], by simp, by simp, ⟨Nat.le_refl _, fun c hc => hc⟩, by simp, ?_⟩
  have hnone : (fence t).takeWhile (· = ' ') = [] := by
    refine Text.takeWhile_run (b := []) (by simp) fun c hc => ?_
    rw [List.eq_of_mem_replicate (List.mem_of_mem_head? hc)]
    rfl
  rw [hnone]
  exact Nat.zero_le _

/-- The lines of a text in a fence: the fence with the language, the lines of the text, and the fence again. -/
theorem lines_fenced (hlang : ∀ c ∈ lang, isBlank c = false) (t : Text) :
    ∃ ls, ls ≠ [] ∧ lines (fenced lang t) = (fence t ++ lang) :: (ls ++ [fence t]) ∧
      ended ls = unixLines (lineBody t ++ ['\n']) := by
  have hfence : ∀ c ∈ fence t, c = '\x60' := fun c hc => List.eq_of_mem_replicate hc
  have hclosing : lines (fence t) = [fence t] := by
    rw [Text.lines_of_no_return fun h => absurd (hfence _ h) (by decide),
      Text.splitAt_of_not_mem fun h => absurd (hfence _ h) (by decide)]
  have hopening : ∀ c ∈ fence t ++ lang, c ≠ '\n' ∧ c ≠ '\r' := by
    intro c hc
    rcases List.mem_append.mp hc with hc | hc
    · rw [hfence c hc]
      decide
    · have hblank := hlang c hc
      constructor <;> rintro rfl <;> exact absurd hblank (by decide)
  obtain ⟨ls, hne, hlines, hended⟩ := Text.exists_lines_append_cons (lineBody t) (fence t)
  refine ⟨ls, hne, ?_, hended⟩
  rw [fenced_eq, Text.lines_append_cons (fun h => (hopening _ h).1 rfl) (fun h => (hopening _ h).2 rfl), hlines,
    hclosing]

/-- The tokens of a text in a fence: an opening one, one for each line of the text, and a closing one. -/
theorem tokenize_fenced (hlang : ∀ c ∈ lang, isBlank c = false ∧ c ≠ '\x60') (t : Text) :
    ∃ body closing, tokenize (fenced lang t) =
        { kind := .fenceOpen, line := 1, info := lang, marker := fence t } :: (body ++ [closing]) ∧
      (∀ k ∈ body, k.kind = .codeLine) ∧ closing.kind = .fenceClose ∧
      joinLines (body.map (·.text)) = dropFinal '\n' (unixLines (lineBody t ++ ['\n'])) := by
  obtain ⟨ls, hne, hlines, hended⟩ := lines_fenced (fun c hc => (hlang c hc).1) t
  have hinside : ∀ l ∈ ls, closesFence (fence t) l = false := by
    intro l hl
    have hfeed : '\n' ∉ l := Text.not_mem_of_mem_lines (t := fenced lang t) (by simp [hlines, hl])
    have hunix : l <:+: unixLines (lineBody t ++ ['\n']) := by
      obtain ⟨before, after, rfl⟩ := List.append_of_mem hl
      exact ⟨ended before, '\n' :: ended after, by simp [← hended, ended]⟩
    exact closesFence_line (Text.infix_of_infix_concat (Text.infix_of_unixLines hunix hfeed) hfeed)
  obtain ⟨body, hread, hkind, htext⟩ := Markup.readLines_code hinside 2 [fence t]
  refine ⟨body, { kind := .fenceClose, line := (2 + ls.length : Nat) }, ?_, hkind, rfl, ?_⟩
  · rw [tokenize, hlines, readLines, Markup.readLine, Markup.readOutside, fenceOpening?_fence hlang]
    dsimp only
    rw [hread, readLines, Markup.readLine, closesFence_fence, if_pos rfl, readLines]
    rfl
  · rw [htext, ← hended, ← Text.joinLines_concat_feed hne, Text.dropFinal_concat]

/-- A text in a fence is one code block, for the tokens and for the tree. The block holds the text up to the line feeds at
its end, with a line feed for each line end. -/
theorem treeOf_fenced (hlang : ∀ c ∈ lang, isBlank c = false ∧ c ≠ '\x60') (t : Text) :
    (∃ opening body closing, tokenize (fenced lang t) = opening :: (body ++ [closing]) ∧
      opening.kind = .fenceOpen ∧ opening.info = lang ∧ (∀ k ∈ body, k.kind = .codeLine) ∧ closing.kind = .fenceClose) ∧
    ∃ node, (treeOf (fenced lang t)).children = [node] ∧
      node.kind = .code (nonempty lang) none (dropFinal '\n' (unixLines (lineBody t ++ ['\n']))) := by
  obtain ⟨body, closing, htokens, hbody, hclosing, htext⟩ := tokenize_fenced hlang t
  have hcut : lang.cut ' ' = (lang, none) := Text.cut_of_not_mem fun h => absurd (hlang _ h).1 (by decide)
  refine ⟨⟨_, body, closing, htokens, rfl, rfl, hbody, hclosing⟩, ?_⟩
  rw [treeOf, Markup.rootOf, Node.children, htokens, Markup.blocks_closed rfl hbody hclosing]
  refine ⟨_, rfl, ?_⟩
  rw [← htext, codeNode, hcut]
  rfl

/-- Runs of backticks of any length, deep and shallow, with carriage returns of all kinds around them. -/
def nestedFences : Text :=
  "\x60\x60\x60text\r\n  \x60\x60\x60\x60\na\rb\n\t\x60\x60\x60\x60\x60 \r\n\r\n\n\n"

theorem treeOf_fenced_nestedFences : (∀ c ∈ ("log".toList : Text), isBlank c = false ∧ c ≠ '\x60') ∧
    ∃ node, (treeOf (fenced "log" nestedFences)).children = [node] ∧ node.kind = .code (some "log".toList) none
      "\x60\x60\x60text\n  \x60\x60\x60\x60\na\rb\n\t\x60\x60\x60\x60\x60 \n" := by
  have hlang : ∀ c ∈ ("log".toList : Text), isBlank c = false ∧ c ≠ '\x60' := by
    refine List.forall_mem_cons.mpr ⟨by decide, List.forall_mem_cons.mpr ⟨by decide, ?_⟩⟩
    exact List.forall_mem_singleton.mpr (by decide)
  obtain ⟨-, node, hnode, hkind⟩ := treeOf_fenced hlang nestedFences
  exact ⟨hlang, node, hnode, hkind⟩

end Display
end Runbook
