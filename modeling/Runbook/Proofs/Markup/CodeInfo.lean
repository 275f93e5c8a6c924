import Runbook.Proofs.Document.Claimed
import Runbook.Proofs.Markup.Coverage
import Runbook.Proofs.Markup.FenceReaders

/-!
The info of a code block, in the tree and on its opening line. The tree cuts it at a space and the other readers at any
blank, so they agree where the first blank is a space, and only there.
-/
namespace Runbook.Markup

open Text (afterWord isBlank IsSpaced)

variable {t value x : Text} {lang info : Option Text} {k : Token} {ls : List Text} {n : Node} {mode : Mode} {i : Nat}

/-- A code block is made from an opening line and the tokens right after it. -/
theorem exists_opening_of_code (h : n ∈ (treeOf t).subtree) (hcode : n.kind = .code lang info value) :
    ∃ k post, k :: post <:+ tokenize t ∧ k.kind = .fenceOpen ∧ n = codeNode k (codeRun k.line post) := by
  rcases mem_subtree_treeOf h with rfl | ⟨m, -, k, post, hk, hb, hn⟩
  · cases hcode
  · rcases mem_subtree_blockAt hb hn with rfl | ⟨-, hinner⟩
    · unfold blockAt at hb
      split at hb <;> cases hb
      case h_2 hopen => exact ⟨k, post, hk, hopen, rfl⟩
      all_goals cases hcode
    · rw [hcode] at hinner
      cases hinner

/-- The info of an opening token comes from an opening line. -/
theorem exists_line_of_mem (h : k ∈ readLines mode i ls) (hk : k.kind = .fenceOpen) :
    ∃ l ∈ ls, fenceOpening? l = some (k.marker, k.info) := by
  induction ls generalizing mode i with
  | nil => cases h
  | cons l ls ih =>
    rcases List.mem_cons.mp h with rfl | h
    · refine ⟨l, List.mem_cons_self, ?_⟩
      cases mode with
      | outside =>
        rcases readOutside_cases i l with ⟨hout, -⟩ | ⟨marker, info, ho, hread⟩ | ⟨hcomment, -⟩
        · rw [readLine] at hk
          rw [hk] at hout
          cases hout
        · rw [readLine, hread]
          exact ho
        · rw [readLine] at hk
          rw [hk] at hcomment
          cases hcomment
      | code marker =>
        simp only [readLine] at hk
        split at hk <;> cases hk
      | comment =>
        simp only [readLine] at hk
        split at hk <;> cases hk
    · obtain ⟨l', hl', ho⟩ := ih h
      exact ⟨l', List.mem_cons_of_mem l hl', ho⟩

theorem head_info (h : k ∈ tokenize t) (hk : k.kind = .fenceOpen) : ∀ c ∈ k.info.head?, isBlank c = false := by
  obtain ⟨l, -, ho⟩ := exists_line_of_mem h hk
  obtain ⟨-, rest, -, -, -, -, hinfo, -⟩ := fenceOpening?_eq_some_iff.mp ho
  rw [hinfo]
  exact Text.head_trim isBlank rest

/-- The opening token of a code block is the only one on the first line of the block. -/
theorem filter_opening (hk : k ∈ tokenize t) (hopen : k.kind = .fenceOpen) :
    (tokenize t).filter (fun j => j.kind = .fenceOpen ∧ j.line = k.line) = [k] := by
  have hasc : Ascending (tokenize t) := (numbered_readLines .outside 1 t.lines).ascending
  have hlines : ((tokenize t).map (·.line)).Nodup := by
    rw [List.Nodup, List.pairwise_map]
    exact hasc.imp Int.ne_of_lt
  apply filter_eq_singleton (hlines.of_map _) hk
  intro j hj
  rw [decide_eq_true_iff]
  constructor
  · rintro ⟨-, hline⟩
    exact List.inj_on_of_nodup_map hlines hj hk hline
  · rintro rfl
    exact ⟨hopen, rfl⟩

/-- A code block has one opening line. What the tree says of its language and of the rest of its info is what stands up to
the first space and after it. That is the first word and what follows the word where the first blank is a space, and only
there. -/
theorem code_agrees_iff (hn : n ∈ (treeOf t).subtree) (hcode : n.kind = .code lang info value) :
    ∃ k, (tokenize t).filter (fun j => j.kind = .fenceOpen ∧ some j.line = n.line?) = [k] ∧
      lang = nonempty (k.info.cut ' ').1 ∧ info = nonempty (Text.strip ((k.info.cut ' ').2.getD [])) ∧
      ((lang.getD [] = k.lang ∧ (lang.getD []).lower = Fence.lang ⟨k.info, x, i⟩ ∧
        info = nonempty (Text.strip (afterWord k.info))) ↔ IsSpaced k.info) := by
  obtain ⟨k, post, hk, hopen, rfl⟩ := exists_opening_of_code hn hcode
  have hmem : k ∈ tokenize t := hk.subset List.mem_cons_self
  obtain ⟨rfl, rfl, rfl⟩ : nonempty (k.info.cut ' ').1 = lang ∧
      nonempty (Text.strip ((k.info.cut ' ').2.getD [])) = info ∧ Text.joinLines (codeRun k.line post).lines = value := by
    cases hcode
    exact ⟨rfl, rfl, rfl⟩
  refine ⟨k, ?_, rfl, rfl, ?_⟩
  · have hline : (codeNode k (codeRun k.line post)).line? = some k.line := rfl
    simp only [hline, Option.some_inj]
    exact filter_opening hmem hopen
  · rw [getD_nonempty]
    rcases Text.cut_space_cases (head_info hmem hopen) with ⟨hspaced, hlang, hrest⟩ | ⟨hnot, hlt⟩
    · refine iff_of_true ⟨hlang, ?_, ?_⟩ hspaced
      · rw [hlang]
        rfl
      · rw [hrest]
    · refine iff_of_false ?_ hnot
      rintro ⟨hlang, -⟩
      rw [hlang] at hlt
      exact Nat.lt_irrefl _ hlt

/-- Two spaces between the language and the rest, and a carriage return behind both. -/
def titledBlock : Text := "~~~ Python  title=x y\r\na\n~~~\n"

theorem code_agrees_iff_titledBlock : ∃ n ∈ (treeOf titledBlock).subtree, ∃ k ∈ tokenize titledBlock,
    n.kind = .code (some "Python".toList) (some "title=x y".toList) "a" ∧ k.kind = .fenceOpen ∧ n.line? = some k.line ∧
      k.lang = "Python" := by
  have hany : (treeOf titledBlock).subtree.any
      (fun n => n.kind = .code (some "Python".toList) (some "title=x y".toList) "a") = true := by decide +kernel
  have hspaced : ∀ k ∈ tokenize titledBlock, IsSpaced k.info := by decide +kernel
  obtain ⟨n, hn, hkind⟩ := List.any_eq_true.mp hany
  have hcode := of_decide_eq_true hkind
  obtain ⟨k, hk, -, -, hagree⟩ := code_agrees_iff (x := []) (i := 0) hn hcode
  have hmem : k ∈ [k] := List.mem_singleton_self k
  rw [← hk, List.mem_filter, decide_eq_true_iff] at hmem
  obtain ⟨hk, hopen, hline⟩ := hmem
  obtain ⟨hlang, -⟩ := hagree.mpr (hspaced k hk)
  exact ⟨n, hn, k, hk, hcode, hopen, hline.symm, hlang.symm⟩

/-- A tab behind the language. -/
def tabbedBlock : Text := "\x60\x60\x60yaml\t\x7b.k8s\x7d\na\n\x60\x60\x60\n"

theorem code_disagrees_tabbedBlock : ∃ n ∈ (treeOf tabbedBlock).subtree, ∃ k ∈ tokenize tabbedBlock,
    n.kind = .code (some "yaml\t\x7b.k8s\x7d".toList) none "a" ∧ k.kind = .fenceOpen ∧ n.line? = some k.line ∧
      k.lang = "yaml" ∧ Text.strip (afterWord k.info) = "\x7b.k8s\x7d" := by
  have hany : (treeOf tabbedBlock).subtree.any (fun n => (tokenize tabbedBlock).any fun k =>
      n.kind = .code (some "yaml\t\x7b.k8s\x7d".toList) none "a" ∧ k.kind = .fenceOpen ∧ n.line? = some k.line ∧
        k.lang = "yaml" ∧ Text.strip (afterWord k.info) = "\x7b.k8s\x7d") = true := by decide +kernel
  simpa only [List.any_eq_true, decide_eq_true_eq] using hany

end Runbook.Markup
