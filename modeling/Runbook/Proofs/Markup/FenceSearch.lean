import Mathlib.Data.List.Find
import Runbook.Proofs.Text.Offset
import Runbook.Proofs.Document.Claimed
import Runbook.Proofs.Markup.ClosingLine
import Runbook.Proofs.Markup.Stretch

/-!
The search for fenced blocks by offsets: a turn looks for the next marked line, takes the block that it opens, and goes on
where the block ends. The offset grows with every turn, and the blocks are those that the lines are read for.
-/
namespace Runbook.Markup

open Sanitize (OpensNone fencesFrom_opensNone)
open Text (ended joinLines lineStarts linesFrom splitAt unixLines)

/-- A block with its marker and its place, from the start of its opening line to the end of its closing one. -/
structure PlacedBlock where
  block : Fence
  marker : Text
  start : Nat
  stop : Nat
  deriving DecidableEq, Repr

variable {t l marker info : Text} {p q o : Nat} {found : Option PlacedBlock} {xs ys before rest : List Text}

/-- Whether a line starts as an opening line does. The rest of it may still say that it is none. -/
def isMarked (l : Text) : Bool := ((indented? l).bind marker?).isSome

/-- The first marked line from an offset on that has a line feed. -/
def marked? (t : Text) (p : Nat) : Option (Nat × Text) :=
  (lineStarts t).find? fun x => decide (p ≤ x.1) && (isMarked x.2 && decide (x.1 + x.2.length < t.length))

/-- The first closing line from an offset on. -/
def closing? (marker t : Text) (p : Nat) : Option (Nat × Text) :=
  (lineStarts t).find? fun x => decide (p ≤ x.1) && endsBlock marker x.2

/-- The block that a line at `start` opens, with its content from `inner` on. -/
def placed (t marker info : Text) (start inner : Nat) : PlacedBlock :=
  let line := (t.take start).count '\n' + 1
  match closing? marker t inner with
  | some (e, l) => ⟨⟨info, blockContent ((t.drop inner).take (e - inner)), line⟩, marker, start, e + l.length⟩
  | none => ⟨⟨info, blockContent (t.drop inner), line⟩, marker, start, t.length⟩

/-- One turn from an offset on: the block that it finds, if the marked line opens one, and where the next turn starts. -/
def turn? (t : Text) (p : Nat) : Option (Option PlacedBlock × Nat) :=
  (marked? t p).map fun (o, l) =>
    match fenceOpening? l with
    | none => (none, o + l.length + 1)
    | some (marker, info) =>
      let b := placed t marker info o (o + l.length + 1)
      (some b, b.stop)

/-- What a turn does is told by the marked line. -/
theorem turn?_cases (h : turn? t p = some (found, q)) : ∃ x, marked? t p = some x ∧
    ((fenceOpening? x.2 = none ∧ found = none ∧ q = x.1 + x.2.length + 1) ∨
      ∃ marker info, fenceOpening? x.2 = some (marker, info) ∧
        found = some (placed t marker info x.1 (x.1 + x.2.length + 1)) ∧
        q = (placed t marker info x.1 (x.1 + x.2.length + 1)).stop) := by
  obtain ⟨⟨o, l⟩, hx, hturn⟩ := Option.map_eq_some_iff.mp h
  refine ⟨(o, l), hx, ?_⟩
  dsimp only at hturn ⊢
  cases ho : fenceOpening? l with
  | none =>
    rw [ho] at hturn
    cases hturn
    exact .inl ⟨rfl, rfl, rfl⟩
  | some opening =>
    obtain ⟨marker, info⟩ := opening
    rw [ho] at hturn
    cases hturn
    exact .inr ⟨marker, info, rfl, rfl, rfl⟩

theorem marked?_spec {x : Nat × Text} (h : marked? t p = some x) :
    x ∈ lineStarts t ∧ p ≤ x.1 ∧ isMarked x.2 = true ∧ x.1 + x.2.length < t.length := by
  have hx := List.find?_some h
  simp only [Bool.and_eq_true, decide_eq_true_eq] at hx
  exact ⟨List.mem_of_find?_eq_some h, hx⟩

theorem placed_stop (t marker info : Text) (start : Nat) (h : p ≤ t.length) :
    p ≤ (placed t marker info start p).stop ∧ (placed t marker info start p).stop ≤ t.length := by
  unfold placed
  dsimp only
  cases hc : closing? marker t p with
  | none => exact ⟨h, le_rfl⟩
  | some x =>
    have hx := List.find?_some hc
    simp only [Bool.and_eq_true, decide_eq_true_eq] at hx
    have hend := Text.le_length_of_mem (List.mem_of_find?_eq_some hc)
    dsimp only
    omega

/-- Every turn moves on, and none leaves the text. -/
theorem turn?_advances (h : turn? t p = some (found, q)) : p < q ∧ q ≤ t.length := by
  obtain ⟨x, hx, hcase⟩ := turn?_cases h
  obtain ⟨-, hp, -, hlen⟩ := marked?_spec hx
  rcases hcase with ⟨-, -, rfl⟩ | ⟨marker, info, -, -, rfl⟩
  · omega
  · have hstop := placed_stop t marker info x.1 (p := x.1 + x.2.length + 1) (by omega)
    omega

/-- Turns one after the other, from an offset on. -/
def search (t : Text) (p : Nat) : List PlacedBlock :=
  match _turn : turn? t p with
  | none => []
  | some (found, q) => found.toList ++ search t q
termination_by t.length - p
decreasing_by
  have := turn?_advances _turn
  omega

theorem search_of_none (h : turn? t p = none) : search t p = [] := by
  rw [search]
  split
  · rfl
  · rename_i heq
    rw [h] at heq
    cases heq

theorem search_of_some (h : turn? t p = some (found, q)) : search t p = found.toList ++ search t q := by
  rw [search]
  split
  · rename_i heq
    rw [h] at heq
    cases heq
  · rename_i heq
    rw [h] at heq
    cases heq
    rfl

/-- What holds where no turn is left, and from a turn on if it holds after it, holds of the whole search. -/
theorem search_induction {motive : Nat → Prop} (t : Text) (hnone : ∀ p, turn? t p = none → motive p)
    (hsome : ∀ p found q, turn? t p = some (found, q) → motive q → motive p) (p : Nat) : motive p := by
  induction hn : t.length - p using Nat.strongRecOn generalizing p with
  | ind m ih =>
    cases hturn : turn? t p with
    | none => exact hnone p hturn
    | some r =>
      obtain ⟨found, q⟩ := r
      have hadvance := turn?_advances hturn
      exact hsome p found q hturn (ih (t.length - q) (by omega) q rfl)

/-! Places -/

theorem start_placed (t marker info : Text) (start inner : Nat) : (placed t marker info start inner).start = start := by
  unfold placed
  dsimp only
  split <;> rfl

theorem start_of_turn? {b : PlacedBlock} (h : turn? t p = some (some b, q)) : p ≤ b.start ∧ b.stop = q := by
  obtain ⟨x, hx, ⟨-, hnone, -⟩ | ⟨marker, info, -, hfound, rfl⟩⟩ := turn?_cases h
  · cases hnone
  · obtain ⟨-, hp, -⟩ := marked?_spec hx
    cases hfound
    rw [start_placed]
    exact ⟨hp, rfl⟩

theorem le_start_of_mem_search (t : Text) (p : Nat) : ∀ b ∈ search t p, p ≤ b.start := by
  induction p using search_induction t with
  | hnone p h => simp [search_of_none h]
  | hsome p found q h ih =>
    have hadvance := turn?_advances h
    intro b hb
    rw [search_of_some h] at hb
    rcases List.mem_append.mp hb with hb | hb
    · obtain rfl := Option.mem_toList.mp hb
      exact (start_of_turn? h).1
    · have := ih b hb
      omega

/-- Each block ends before the next one starts. -/
theorem pairwise_search (t : Text) (p : Nat) : (search t p).Pairwise fun a b => a.stop ≤ b.start := by
  induction p using search_induction t with
  | hnone p h => simp [search_of_none h]
  | hsome p found q h ih =>
    rw [search_of_some h]
    refine List.pairwise_append.mpr ⟨by cases found <;> simp, ih, ?_⟩
    intro a ha b hb
    obtain rfl := Option.mem_toList.mp ha
    rw [(start_of_turn? h).2]
    exact le_start_of_mem_search t q b hb

/-! The lines that are left -/

/-- At an offset, the raw lines before are passed and those after are left. -/
structure At (t : Text) (p : Nat) (xs ys : List Text) : Prop where
  split : splitAt '\n' t = xs ++ ys
  passed : ∀ x ∈ linesFrom 0 xs, x.1 < p
  ahead : p ≤ (ended xs).length

theorem At.find? (h : At t p xs ys) (f : Nat × Text → Bool) :
    (lineStarts t).find? (fun x => decide (p ≤ x.1) && f x) = (linesFrom (ended xs).length ys).find? f := by
  have hpassed : (linesFrom 0 xs).find? (fun x => decide (p ≤ x.1) && f x) = none := by
    rw [List.find?_eq_none]
    intro x hx
    have := h.passed x hx
    simp only [Bool.and_eq_true, decide_eq_true_eq]
    omega
  have hahead : ∀ x ∈ linesFrom (ended xs).length ys, (decide (p ≤ x.1) && f x) = f x := by
    intro x hx
    have hle := Text.le_of_mem_linesFrom hx
    have hp := h.ahead
    rw [decide_eq_true (by omega), Bool.true_and]
  rw [lineStarts, h.split, Text.linesFrom_append, List.find?_append, hpassed, Option.none_or, Nat.zero_add]
  exact List.find?_congr hahead

/-- The first line left that a test takes, and the lines before it. -/
theorem exists_of_find? {f : Nat × Text → Bool} {x : Nat × Text} (h : (linesFrom o ys).find? f = some x) :
    ∃ zs rest, ys = zs ++ x.2 :: rest ∧ x.1 = o + (ended zs).length ∧ f x = true ∧
      ∀ y ∈ linesFrom o zs, f y = false := by
  obtain ⟨hx, as, bs, heq, has⟩ := List.find?_eq_some_iff_append.mp h
  obtain ⟨zs, rest, hys, rfl, hstart, -⟩ := Text.exists_of_linesFrom_eq_cons heq
  exact ⟨zs, rest, hys, hstart, hx, by simpa using has⟩

theorem At.text (h : At t p xs (before ++ l :: rest)) : t = ended (xs ++ before) ++ joinLines (l :: rest) :=
  Text.eq_of_split (by rw [h.split, List.append_assoc]) (by simp)

theorem fenceOpening?_of_not_isMarked (h : isMarked l = false) : fenceOpening? l = none := by
  unfold isMarked at h
  unfold fenceOpening?
  cases hi : indented? l with
  | none => rfl
  | some r =>
    rw [hi, Option.bind_some] at h
    rw [Option.bind_eq_bind, Option.bind_some, Option.isSome_eq_false_iff.mp h |> Option.isNone_iff_eq_none.mp]
    rfl

/-- The marked line that a turn looks at stands behind lines that open nothing. -/
theorem At.marked? {x : Nat × Text} (h : At t p xs ys) (hx : marked? t p = some x) :
    ∃ before rest, ys = before ++ x.2 :: rest ∧ rest ≠ [] ∧ OpensNone before ∧ x.1 = (ended (xs ++ before)).length := by
  rw [Markup.marked?, h.find?] at hx
  obtain ⟨before, rest, rfl, hstart, htest, hbefore⟩ := exists_of_find? hx
  simp only [Bool.and_eq_true, decide_eq_true_eq] at htest
  have hlen : x.1 = (ended (xs ++ before)).length := by rw [hstart, Text.ended_append, List.length_append]
  refine ⟨before, rest, rfl, ?_, ?_, hlen⟩
  · rintro rfl
    have ht := congrArg List.length h.text
    rw [List.length_append] at ht
    simp only [joinLines, Text.join] at ht
    omega
  · intro l hl
    obtain ⟨y, hy, rfl⟩ := Text.exists_mem_linesFrom hl (ended xs).length
    have hlt := Text.lt_of_mem_linesFrom hy
    have hmark := hbefore y hy
    rw [decide_eq_true (by omega), Bool.and_true] at hmark
    exact fenceOpening?_of_not_isMarked hmark

/-- Where no marked line is left, only the last line could open a block, and it has no line feed. -/
theorem At.opensNone (h : At t p xs ys) (hnone : Markup.marked? t p = none) : OpensNone ys.dropLast := by
  rw [Markup.marked?, h.find?, List.find?_eq_none] at hnone
  intro l hl
  obtain ⟨zs, last, rfl⟩ : ∃ zs last, ys = zs ++ [last] := by
    have hne : ys ≠ [] := by
      rintro rfl
      cases hl
    exact ⟨ys.dropLast, ys.getLast hne, (List.dropLast_append_getLast hne).symm⟩
  rw [List.dropLast_concat] at hl
  obtain ⟨y, hy, rfl⟩ := Text.exists_mem_linesFrom hl (ended xs).length
  have hmem : y ∈ linesFrom (ended xs).length (zs ++ [last]) := by
    rw [Text.linesFrom_append]
    exact List.mem_append_left _ hy
  have hlt := Text.lt_of_mem_linesFrom hy
  have hlen := congrArg List.length h.text
  rw [Text.ended_append, List.length_append, List.length_append] at hlen
  have hmark := hnone y hmem
  rw [decide_eq_true (by omega), Bool.and_true, Bool.not_eq_true] at hmark
  exact fenceOpening?_of_not_isMarked hmark

theorem At.of_split (h : splitAt '\n' t = xs ++ ys) : At t (ended xs).length xs ys where
  split := h
  passed x hx := by
    have := Text.lt_of_mem_linesFrom hx
    omega
  ahead := le_rfl

theorem ne_nil_of_endsBlock (hm : IsMarker marker) (h : endsBlock marker l = true) : l ≠ [] := by
  rintro rfl
  obtain ⟨indent, run, rest, hl, -, hend, -⟩ := (endsBlock_iff hm).mp h
  have hrun := hend.ne_nil hm
  simp_all

theorem finish_closed (marker info : Text) (n : Nat) (body : List Text) :
    OpenBlock.finish ⟨marker, info, n, body.reverse⟩ true = ⟨info, blockContent (ended body), n⟩ := by
  unfold OpenBlock.finish
  dsimp only
  rw [List.reverse_reverse]
  by_cases hne : body = []
  · subst hne
    rfl
  · rw [if_pos ⟨rfl, by simpa using hne⟩, Text.joinLines_concat_feed hne]

theorem finish_unclosed (marker info : Text) (n : Nat) (body : List Text) :
    OpenBlock.finish ⟨marker, info, n, body.reverse⟩ false = ⟨info, blockContent (joinLines body), n⟩ := by
  simp [OpenBlock.finish]

/-- What an opening line takes: the lines up to a closing one, or all of them. -/
theorem placed_eq (h : splitAt '\n' t = before ++ l :: rest) (hne : rest ≠ []) (marker info : Text) :
    (∃ body e post, rest = body ++ e :: post ∧ (∀ x ∈ body, endsBlock marker x = false) ∧ endsBlock marker e = true ∧
      placed t marker info (ended before).length (ended (before ++ [l])).length =
        ⟨OpenBlock.finish ⟨marker, info, before.length + 1, body.reverse⟩ true, marker, (ended before).length,
          (ended (before ++ l :: body)).length + e.length⟩) ∨
    ((∀ x ∈ rest, endsBlock marker x = false) ∧
      placed t marker info (ended before).length (ended (before ++ [l])).length =
        ⟨OpenBlock.finish ⟨marker, info, before.length + 1, rest.reverse⟩ false, marker, (ended before).length,
          t.length⟩) := by
  have hat : At t (ended (before ++ [l])).length (before ++ [l]) rest := .of_split (by rw [h]; simp)
  have hline := Text.count_of_split h (by simp)
  have hdrop := Text.drop_of_split hat.split hne
  have hclosing : closing? marker t (ended (before ++ [l])).length =
      (linesFrom (ended (before ++ [l])).length rest).find? fun x => endsBlock marker x.2 := hat.find? _
  unfold placed
  rw [hline, hdrop, hclosing]
  cases hc : (linesFrom (ended (before ++ [l])).length rest).find? fun x => endsBlock marker x.2 with
  | none =>
    refine .inr ⟨fun x hx => ?_, ?_⟩
    · obtain ⟨y, hy, rfl⟩ := Text.exists_mem_linesFrom hx (ended (before ++ [l])).length
      simpa using List.find?_eq_none.mp hc y hy
    · rw [finish_unclosed]
  | some x =>
    obtain ⟨body, post, rfl, hstart, hends, hbody⟩ := exists_of_find? hc
    refine .inl ⟨body, x.2, post, rfl, fun y hy => ?_, hends, ?_⟩
    · obtain ⟨z, hz, rfl⟩ := Text.exists_mem_linesFrom hy (ended (before ++ [l])).length
      exact hbody z hz
    · have hbefore : ended (before ++ [l]) ++ ended body = ended (before ++ l :: body) := by
        rw [← Text.ended_append, List.append_assoc, List.singleton_append]
      have htake : (joinLines (body ++ x.2 :: post)).take (x.1 - (ended (before ++ [l])).length) = ended body := by
        rw [Text.joinLines_append (by simp), hstart, Nat.add_sub_cancel_left, List.take_left]
      dsimp only
      rw [htake, hstart, ← List.length_append, hbefore, finish_closed]

/-! What a turn does -/

/-- Lines that open nothing are passed, and then the marked line, alone or with the block that it opens. -/
inductive Turn (t : Text) (xs : List Text) : List Text → Option PlacedBlock → Nat → Prop
  | refused {before rest : List Text} {l : Text} (hbefore : OpensNone before) (hl : fenceOpening? l = none) :
      Turn t xs (before ++ l :: rest) none (ended (xs ++ before ++ [l])).length
  | closed {before body post : List Text} {l e marker info : Text} {b : PlacedBlock} (hbefore : OpensNone before)
      (ho : fenceOpening? l = some (marker, info)) (hbody : ∀ x ∈ body, endsBlock marker x = false)
      (he : endsBlock marker e = true)
      (hb : b = ⟨OpenBlock.finish ⟨marker, info, (xs ++ before).length + 1, body.reverse⟩ true, marker,
        (ended (xs ++ before)).length, (ended (xs ++ before ++ l :: body)).length + e.length⟩) :
      Turn t xs (before ++ l :: (body ++ e :: post)) (some b) b.stop
  | unclosed {before rest : List Text} {l marker info : Text} {b : PlacedBlock} (hbefore : OpensNone before)
      (ho : fenceOpening? l = some (marker, info)) (hne : rest ≠ []) (hrest : ∀ x ∈ rest, endsBlock marker x = false)
      (hb : b = ⟨OpenBlock.finish ⟨marker, info, (xs ++ before).length + 1, rest.reverse⟩ false, marker,
        (ended (xs ++ before)).length, t.length⟩) :
      Turn t xs (before ++ l :: rest) (some b) b.stop

theorem At.turn (h : At t p xs ys) (hturn : turn? t p = some (found, q)) : Turn t xs ys found q := by
  obtain ⟨⟨o, l⟩, hx, hcase⟩ := turn?_cases hturn
  obtain ⟨before, rest, rfl, hne, hbefore, rfl⟩ := h.marked? hx
  dsimp only at hcase hne ⊢
  rw [← Text.length_ended_concat] at hcase
  rcases hcase with ⟨hl, rfl, rfl⟩ | ⟨marker, info, ho, rfl, rfl⟩
  · exact .refused hbefore hl
  · have hsplit : splitAt '\n' t = (xs ++ before) ++ l :: rest := by rw [h.split, List.append_assoc]
    rcases placed_eq hsplit hne marker info with ⟨body, e, post, rfl, hbody, he, hb⟩ | ⟨hrest, hb⟩
    · exact .closed hbefore ho hbody he hb
    · exact .unclosed hbefore ho hne hrest hb

theorem isMarker_of_fenceOpening? (ho : fenceOpening? l = some (marker, info)) : IsMarker marker := by
  obtain ⟨-, -, -, -, hm, -⟩ := fenceOpening?_eq_some_iff.mp ho
  exact hm

theorem fencesFrom_unclosed (ho : fenceOpening? l = some (marker, info)) (hne : rest ≠ [])
    (hrest : ∀ x ∈ rest, endsBlock marker x = false) (n : Nat) :
    fencesFrom n none (l :: rest) = [OpenBlock.finish ⟨marker, info, n, rest.reverse⟩ false] := by
  have hbody := fencesFrom_body (b := ⟨marker, info, n, []⟩) hrest (n + 1) []
  rw [List.append_nil] at hbody
  rw [fencesFrom, ho]
  dsimp only at hbody ⊢
  rw [if_neg (by simpa using hne), hbody, fencesFrom, List.append_nil]

theorem line_of_append (xs ys : List Text) : xs.length + 1 + ys.length = (xs ++ ys).length + 1 := by
  rw [List.length_append]
  omega

/-- A turn takes lines from the front of those that are left, and finds the blocks that these lines are read for. -/
theorem Turn.next (h : Turn t xs ys found q) (hsplit : splitAt '\n' t = xs ++ ys) : ∃ taken left, ys = taken ++ left ∧
    (At t q (xs ++ taken) left ∨ q = t.length ∧ left = []) ∧
      fencesFrom (xs.length + 1) none ys =
        found.toList.map (·.block) ++ fencesFrom (xs.length + 1 + taken.length) none left := by
  cases h with
  | @refused before rest l hbefore hl =>
    refine ⟨before ++ [l], rest, by simp, .inl ?_, ?_⟩
    · rw [← List.append_assoc]
      exact .of_split (by simp [hsplit])
    · rw [fencesFrom_opensNone hbefore, fencesFrom, hl, List.length_append]
      rfl
  | @closed before body post l e marker info b hbefore ho hbody he hb =>
    have hlines : xs ++ (before ++ l :: (body ++ [e])) = (xs ++ before ++ l :: body) ++ [e] := by simp
    have hpos := List.length_pos_iff.mpr (ne_nil_of_endsBlock (isMarker_of_fenceOpening? ho) he)
    refine ⟨before ++ l :: (body ++ [e]), post, by simp, .inl ⟨by simp [hsplit], ?_, ?_⟩, ?_⟩
    · intro x hx
      rw [hlines, Text.linesFrom_append, Nat.zero_add] at hx
      rw [hb]
      rcases List.mem_append.mp hx with hx | hx
      · have := Text.lt_of_mem_linesFrom hx
        dsimp only
        omega
      · obtain rfl := List.mem_singleton.mp hx
        exact Nat.lt_add_of_pos_right hpos
    · rw [hlines, Text.length_ended_concat, hb]
      exact Nat.le_succ _
    · rw [fencesFrom_opensNone hbefore, fencesFrom_block ho hbody he, line_of_append, hb, Option.toList_some,
        List.map_singleton, List.singleton_append]
      congr 2
      simp only [List.length_append, List.length_cons, List.length_nil]
      omega
  | @unclosed before rest l marker info b hbefore ho hne hrest hb =>
    refine ⟨before ++ l :: rest, [], by simp, .inr ⟨by rw [hb], rfl⟩, ?_⟩
    rw [fencesFrom_opensNone hbefore, fencesFrom_unclosed ho hne hrest, line_of_append, hb]
    rfl

theorem fencesFrom_of_opensNone (h : OpensNone ys.dropLast) (n : Nat) : fencesFrom n none ys = [] := by
  by_cases hne : ys = []
  · subst hne
    rfl
  · rw [← List.dropLast_append_getLast hne, fencesFrom_opensNone h]
    simp only [fencesFrom, List.isEmpty_nil, if_true]
    split <;> rfl

theorem search_length (t : Text) : search t t.length = [] := by
  apply search_of_none
  cases hturn : turn? t t.length with
  | none => rfl
  | some r =>
    have := turn?_advances hturn
    omega

/-- The search finds the blocks that the lines which are left are read for. -/
theorem At.map_search (h : At t p xs ys) : (search t p).map (·.block) = fencesFrom (xs.length + 1) none ys := by
  induction p using search_induction t generalizing xs ys with
  | hnone p hturn =>
    have hnone : Markup.marked? t p = none := Option.map_eq_none_iff.mp hturn
    rw [search_of_none hturn, fencesFrom_of_opensNone (h.opensNone hnone), List.map_nil]
  | hsome p found q hturn ih =>
    obtain ⟨taken, left, -, hnext, hblocks⟩ := (h.turn hturn).next h.split
    rw [search_of_some hturn, List.map_append, hblocks]
    congr 1
    rcases hnext with hat | ⟨rfl, rfl⟩
    · rw [ih hat, line_of_append]
    · rw [search_length]
      rfl

theorem map_search (t : Text) : (search t 0).map (·.block) = fences t := by
  have hsplit : splitAt '\n' t = [] ++ splitAt '\n' t := rfl
  exact (At.of_split hsplit).map_search

end Runbook.Markup
