import Runbook.Markup.Tree

/-! What each run takes from the tokens before it stops, for any tokens at all. -/
namespace Runbook.Markup

variable {k j : Token} {ks taken : List Token} {l : Int} {o : Bool}

/-- The number of the last of some tokens, or of a line before them. -/
def lastLine (l : Int) (ks : List Token) : Int := ((ks.getLast?).map (·.line)).getD l

@[simp] theorem lastLine_nil (l : Int) : lastLine l [] = l := rfl

@[simp] theorem lastLine_cons (l : Int) (k : Token) (ks : List Token) :
    lastLine l (k :: ks) = lastLine k.line ks := by
  cases ks with
  | nil => rfl
  | cons j ks => simp [lastLine, List.getLast?_cons]

/-- The items of a list after its first; a blank line is there only with an item right after it. -/
inductive IsItemTail (o : Bool) : List Token → Prop
  | nil : IsItemTail o []
  | item {k : Token} {ks : List Token} (hk : isItem o k = true) (h : IsItemTail o ks) : IsItemTail o (k :: ks)
  | blank {j k : Token} {ks : List Token} (hj : j.kind = .blank) (hk : isItem o k = true) (h : IsItemTail o ks) :
      IsItemTail o (j :: k :: ks)

theorem kind_of_isItem (h : isItem o k = true) : k.kind = .listItem := by
  simp only [isItem, Bool.and_eq_true, decide_eq_true_eq] at h
  exact h.1

theorem not_blank_of_isItem (h : isItem o k = true) : k.kind ≠ .blank := by
  rw [kind_of_isItem h]
  decide

theorem IsItemTail.kind_eq (h : IsItemTail o ks) : ∀ x ∈ ks, x.kind = .listItem ∨ x.kind = .blank := by
  induction h with
  | nil => simp
  | item hk _ ih => exact List.forall_mem_cons.mpr ⟨.inl (kind_of_isItem hk), ih⟩
  | blank hj hk _ ih =>
    exact List.forall_mem_cons.mpr ⟨.inr hj, List.forall_mem_cons.mpr ⟨.inl (kind_of_isItem hk), ih⟩⟩

/-- The closing line of a block, if there is one. -/
def IsClosing (c : TokenKind) (close : List Token) : Prop := close = [] ∨ ∃ j, close = [j] ∧ j.kind = c

theorem IsClosing.kind_eq {c : TokenKind} {close : List Token} (h : IsClosing c close) (hk : k ∈ close) :
    k.kind = c := by
  rcases h with rfl | ⟨j, rfl, hj⟩
  · cases hk
  · rwa [List.mem_singleton.mp hk]

theorem codeRun_taken (l : Int) (ks : List Token) : ∃ body close, ks = body ++ close ++ (codeRun l ks).rest ∧
    (∀ x ∈ body, x.kind = .codeLine) ∧ IsClosing .fenceClose close ∧
    (codeRun l ks).lines = body.map (·.text) ∧ (codeRun l ks).last = lastLine l (body ++ close) := by
  induction ks generalizing l with
  | nil => exact ⟨[], [], rfl, by simp, .inl rfl, rfl, rfl⟩
  | cons k ks ih =>
    unfold codeRun
    split
    · rename_i hk
      obtain ⟨body, close, hks, hb, hc, hl, hlast⟩ := ih k.line
      refine ⟨k :: body, close, ?_, List.forall_mem_cons.mpr ⟨hk, hb⟩, hc, ?_, ?_⟩
      · rw [List.cons_append, List.cons_append, Run.push, ← hks]
      · rw [Run.push, hl, List.map_cons]
      · rw [Run.push, hlast, List.cons_append, lastLine_cons]
    · rename_i hk
      exact ⟨[], [k], rfl, by simp, .inr ⟨k, rfl, hk⟩, rfl, rfl⟩
    · exact ⟨[], [], rfl, by simp, .inl rfl, rfl, rfl⟩

theorem commentRun_taken (l : Int) (ks : List Token) : ∃ body close, ks = body ++ close ++ (commentRun l ks).rest ∧
    (∀ x ∈ body, x.kind = .commentLine) ∧ IsClosing .commentClose close ∧
    (commentRun l ks).lines = (body ++ close).map (·.text) ∧ (commentRun l ks).last = lastLine l (body ++ close) := by
  induction ks generalizing l with
  | nil => exact ⟨[], [], rfl, by simp, .inl rfl, rfl, rfl⟩
  | cons k ks ih =>
    unfold commentRun
    split
    · rename_i hk
      obtain ⟨body, close, hks, hb, hc, hl, hlast⟩ := ih k.line
      refine ⟨k :: body, close, ?_, List.forall_mem_cons.mpr ⟨hk, hb⟩, hc, ?_, ?_⟩
      · rw [List.cons_append, List.cons_append, Run.push, ← hks]
      · rw [Run.push, hl, List.cons_append, List.map_cons]
      · rw [Run.push, hlast, List.cons_append, lastLine_cons]
    · rename_i hk
      exact ⟨[], [k], rfl, by simp, .inr ⟨k, rfl, hk⟩, rfl, rfl⟩
    · exact ⟨[], [], rfl, by simp, .inl rfl, rfl, rfl⟩

theorem paragraphRun_taken (l : Int) (ks : List Token) : ∃ taken, ks = taken ++ (paragraphRun l ks).rest ∧
    (∀ x ∈ taken, x.kind = .paragraph) ∧ (paragraphRun l ks).lines = taken.map (·.text) ∧
    (paragraphRun l ks).last = lastLine l taken := by
  induction ks generalizing l with
  | nil => exact ⟨[], rfl, by simp, rfl, rfl⟩
  | cons k ks ih =>
    unfold paragraphRun
    split
    · rename_i hk
      obtain ⟨taken, hks, ht, hl, hlast⟩ := ih k.line
      refine ⟨k :: taken, ?_, List.forall_mem_cons.mpr ⟨hk, ht⟩, ?_, ?_⟩
      · rw [List.cons_append, Run.push, ← hks]
      · rw [Run.push, hl, List.map_cons]
      · rw [Run.push, hlast, lastLine_cons]
    · exact ⟨[], rfl, by simp, rfl, rfl⟩

/-- A list ends only where no item comes next. -/
theorem listRun_taken (o : Bool) (l : Int) (ks : List Token) : ∃ taken, ks = taken ++ (listRun o l ks).rest ∧
    IsItemTail o taken ∧ (listRun o l ks).items = taken.filter (isItem o) ∧
    (listRun o l ks).last = lastLine l taken ∧ ∀ j ∈ (listRun o l ks).rest.head?, isItem o j = false := by
  induction ks generalizing l with
  | nil => exact ⟨[], rfl, .nil, rfl, rfl, by simp [listRun]⟩
  | cons k ks ih =>
    unfold listRun
    split
    · rename_i hk
      obtain ⟨taken, hks, ht, hi, hlast, hrest⟩ := ih k.line
      refine ⟨k :: taken, ?_, .item hk ht, ?_, ?_, hrest⟩
      · rw [List.cons_append, ← hks]
      · rw [List.filter_cons, if_pos hk, ← hi]
      · rw [lastLine_cons, ← hlast]
    · rename_i hk
      split
      · rename_i hblank
        obtain ⟨hkind, hnext⟩ := hblank
        obtain ⟨taken, hks, ht, hi, hlast, hrest⟩ := ih l
        -- an item comes next, so the run takes it
        cases ht with
        | nil =>
          rw [List.nil_append] at hks
          rw [← hks] at hrest
          cases hhead : ks.head? with
          | none =>
            rw [hhead] at hnext
            cases hnext
          | some j =>
            rw [hhead, Option.any_some, hrest j hhead] at hnext
            cases hnext
        | item hj ht =>
          refine ⟨_, ?_, .blank hkind hj ht, ?_, ?_, hrest⟩
          · rw [List.cons_append, ← hks]
          · rw [List.filter_cons, if_neg hk, ← hi]
          · rw [lastLine_cons, lastLine_cons, hlast, lastLine_cons]
        | blank hj _ _ =>
          rw [hks] at hnext
          exact (not_blank_of_isItem hnext hj).elim
      · exact ⟨[], rfl, .nil, rfl, rfl, by simpa using hk⟩

end Runbook.Markup
