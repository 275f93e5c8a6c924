import Runbook.Proofs.Markup.FenceSearch

/-!
The blocks that the search for fenced blocks finds. Each one is genuine, from a line that opens it to the first line that
closes it; no two overlap, and no line that could open a block is outside of all of them.
-/
namespace Runbook.Markup

open Text (ended joinLines lineStarts linesFrom splitAt unixLines)

variable {t l marker info : Text} {p q : Nat} {found : Option PlacedBlock} {xs ys before rest : List Text}

/-! Content -/

/-- A line keeps its text when line ends become line feeds, but for a carriage return at its end. -/
theorem exists_splitAt_unixLines (t : Text) : ∃ x xs r rs, splitAt '\n' (unixLines t) = x :: xs ∧
    splitAt '\n' t = r :: rs ∧ (r = x ∨ r = x ++ ['\r']) ∧ ∀ y ∈ xs, y ∈ rs ∨ y ++ ['\r'] ∈ rs := by
  fun_induction unixLines t with
  | case1 => exact ⟨[], [], [], [], rfl, rfl, .inl rfl, by simp⟩
  | case2 t ih =>
    obtain ⟨x, xs, r, rs, hx, hr, hfirst, hrest⟩ := ih
    refine ⟨[], x :: xs, ['\r'], r :: rs, by simp [splitAt, hx], by simp [splitAt, hr], .inr rfl, ?_⟩
    intro y hy
    rcases List.mem_cons.mp hy with rfl | hy
    · rcases hfirst with rfl | rfl <;> simp
    · rcases hrest y hy with hmem | hmem <;> simp [hmem]
  | case3 c t _ ih =>
    obtain ⟨x, xs, r, rs, hx, hr, hfirst, hrest⟩ := ih
    by_cases hc : c = '\n'
    · subst hc
      refine ⟨[], x :: xs, [], r :: rs, by simp [splitAt, hx], by simp [splitAt, hr], .inl rfl, ?_⟩
      intro y hy
      rcases List.mem_cons.mp hy with rfl | hy
      · rcases hfirst with rfl | rfl <;> simp
      · rcases hrest y hy with hmem | hmem <;> simp [hmem]
    · refine ⟨c :: x, xs, c :: r, rs, by simp [splitAt, hx, hc], by simp [splitAt, hr, hc], ?_, hrest⟩
      rcases hfirst with rfl | rfl <;> simp

theorem exists_endsBlock_of_unixLines (hm : IsMarker marker) (h : l ∈ splitAt '\n' (unixLines t)) :
    ∃ r ∈ splitAt '\n' t, endsBlock marker r = endsBlock marker l := by
  obtain ⟨x, xs, r, rs, hx, hr, hfirst, hrest⟩ := exists_splitAt_unixLines t
  rw [hx] at h
  rw [hr]
  have hmem : l ∈ r :: rs ∨ l ++ ['\r'] ∈ r :: rs := by
    rcases List.mem_cons.mp h with rfl | h
    · rcases hfirst with rfl | rfl <;> simp
    · rcases hrest l h with hmem | hmem <;> simp [hmem]
  rcases hmem with hmem | hmem
  · exact ⟨l, hmem, rfl⟩
  · exact ⟨_, hmem, endsBlock_concat hm l⟩

/-- Without its last character a text loses a line end, or a character of its last line. -/
theorem mem_splitAt_of_dropFinal_feed (h : l ∈ splitAt '\n' (Text.dropFinal '\n' t)) : l ∈ splitAt '\n' t := by
  rcases Text.eq_or_eq_concat_dropFinal '\n' t with heq | heq
  · rwa [← heq] at h
  · rw [heq, Text.splitAt_append_cons]
    exact List.mem_append_left _ h

theorem exists_endsBlock_of_dropFinal_return (hm : IsMarker marker) (h : l ∈ splitAt '\n' (Text.dropFinal '\r' t)) :
    ∃ r ∈ splitAt '\n' t, endsBlock marker r = endsBlock marker l := by
  rcases Text.eq_or_eq_concat_dropFinal '\r' t with heq | heq
  · rw [← heq] at h
    exact ⟨l, h, rfl⟩
  · generalize Text.dropFinal '\r' t = s at h heq
    subst heq
    obtain ⟨p, q, rfl, hl, hp, hq⟩ := Text.mem_splitAt_iff.mp h
    rcases Text.eq_nil_or_of_head hq with rfl | ⟨q, rfl⟩
    · refine ⟨l ++ ['\r'], Text.mem_splitAt_iff.mpr ⟨p, [], by simp, ?_, hp, by simp⟩, endsBlock_concat hm l⟩
      simpa using hl
    · exact ⟨l, Text.mem_splitAt_iff.mpr ⟨p, '\n' :: q ++ ['\r'], by simp, hl, hp, by simp⟩, rfl⟩

/-- Where no line of the raw content closes a block, no line of the content does. -/
theorem endsBlock_blockContent (hm : IsMarker marker) (h : ∀ r ∈ splitAt '\n' t, endsBlock marker r = false) :
    ∀ l ∈ splitAt '\n' (blockContent t), endsBlock marker l = false := by
  intro l hl
  obtain ⟨x, hx, hxl⟩ := exists_endsBlock_of_dropFinal_return hm hl
  obtain ⟨r, hr, hrx⟩ := exists_endsBlock_of_unixLines hm (mem_splitAt_of_dropFinal_feed hx)
  rw [← hxl, ← hrx]
  exact h r hr

theorem endsBlock_nil (hm : IsMarker marker) : endsBlock marker [] = false := by
  cases hends : endsBlock marker [] with
  | false => rfl
  | true => exact (ne_nil_of_endsBlock hm hends rfl).elim

/-! Genuine blocks -/

/-- A block of a text: it starts with a line that opens it, and reaches to the first closing line behind it or, without
one, to the end of the text. -/
structure IsGenuine (t : Text) (b : PlacedBlock) : Prop where
  opening : ∃ l, (b.start, l) ∈ lineStarts t ∧ b.start + l.length < t.length ∧
    fenceOpening? l = some (b.marker, b.block.info)
  line : b.block.line = (t.take b.start).count '\n' + 1
  info : '\x60' ∈ b.marker → '\x60' ∉ b.block.info
  content : ∀ l ∈ splitAt '\n' b.block.content, ¬ IsClosingLine b.marker l
  inside : ∀ x ∈ lineStarts t, b.start < x.1 → x.1 + x.2.length < b.stop → ¬ IsClosingLine b.marker x.2
  closing : (∃ x ∈ lineStarts t, b.start < x.1 ∧ x.1 + x.2.length = b.stop ∧ IsClosingLine b.marker x.2) ∨
    b.stop = t.length ∧ ∀ x ∈ lineStarts t, b.start < x.1 → ¬ IsClosingLine b.marker x.2

theorem not_mem_of_fenceOpening? (h : fenceOpening? l = some (marker, info)) (hc : '\x60' ∈ marker) :
    '\x60' ∉ info := by
  obtain ⟨-, -, -, -, hm, -, -, hallow⟩ := fenceOpening?_eq_some_iff.mp h
  intro hinfo
  obtain ⟨c, marker, rfl⟩ := List.exists_cons_of_ne_nil hm.ne_nil
  obtain rfl := hm.eq_of_mem hc List.mem_cons_self
  simp [allowsInfo, hinfo] at hallow

/-- An opening line, the raw content behind it without a closing line, and the end make a genuine block. -/
theorem isGenuine_of_lines {raw : Text} {stop : Nat} (h : splitAt '\n' t = before ++ l :: rest) (hne : rest ≠ [])
    (ho : fenceOpening? l = some (marker, info)) (hraw : ∀ r ∈ splitAt '\n' raw, endsBlock marker r = false)
    (hinside : ∀ x ∈ linesFrom ((ended before).length + l.length + 1) rest, x.1 + x.2.length < stop →
      endsBlock marker x.2 = false)
    (hclosing : (∃ x ∈ lineStarts t, (ended before).length < x.1 ∧ x.1 + x.2.length = stop ∧ endsBlock marker x.2 = true) ∨
      stop = t.length ∧ ∀ x ∈ rest, endsBlock marker x = false) :
    IsGenuine t ⟨⟨info, blockContent raw, before.length + 1⟩, marker, (ended before).length, stop⟩ := by
  have hm := isMarker_of_fenceOpening? ho
  have hline : ∀ x, IsClosingLine marker x ↔ endsBlock marker x = true := fun x => (endsBlock_iff hm).symm
  have hnot : ∀ x, ¬ IsClosingLine marker x ↔ endsBlock marker x = false := fun x => by
    rw [hline, Bool.not_eq_true]
  refine ⟨⟨l, Text.mem_lineStarts_of_split h, Text.lt_length_of_split h hne, ho⟩, ?_, not_mem_of_fenceOpening? ho, ?_, ?_, ?_⟩
  · exact congrArg (· + 1) (Text.count_of_split h (by simp)).symm
  · intro x hx
    exact (hnot x).mpr (endsBlock_blockContent hm hraw x hx)
  · intro x hx hlt hstop
    exact (hnot x.2).mpr (hinside x (Text.mem_linesFrom_of_split h hx hlt) hstop)
  · rcases hclosing with ⟨x, hx, hlt, hstop, hends⟩ | ⟨hstop, hrest⟩
    · exact .inl ⟨x, hx, hlt, hstop, (hline x.2).mpr hends⟩
    · refine .inr ⟨hstop, fun x hx hlt => (hnot x.2).mpr (hrest x.2 ?_)⟩
      exact Text.mem_of_mem_linesFrom (Text.mem_linesFrom_of_split h hx hlt)

theorem isGenuine_of_turn {b : PlacedBlock} (h : Turn t xs ys (some b) q) (hsplit : splitAt '\n' t = xs ++ ys) :
    IsGenuine t b := by
  cases h with
  | @closed before body post l e marker info b hbefore ho hbody he hb =>
    have hlines : splitAt '\n' t = (xs ++ before) ++ l :: (body ++ e :: post) := by rw [hsplit, List.append_assoc]
    have hend : splitAt '\n' t = (xs ++ before ++ l :: body) ++ e :: post := by simp [hsplit]
    have hm := isMarker_of_fenceOpening? ho
    have hstart : (ended (xs ++ before ++ l :: body)).length =
        (ended (xs ++ before)).length + l.length + 1 + (ended body).length := by
      rw [Text.ended_append, List.length_append, Text.length_ended_cons]
      omega
    rw [hb, finish_closed]
    refine isGenuine_of_lines hlines (by simp) ho ?_ ?_ (.inl ⟨_, Text.mem_lineStarts_of_split hend, ?_, rfl, he⟩)
    · have hfeed : ∀ x ∈ body, '\n' ∉ x := fun x hx => Text.feedless_of_split hlines x (by simp [hx])
      rw [Text.splitAt_ended hfeed]
      intro r hr
      rcases List.mem_append.mp hr with hr | hr
      · exact hbody r hr
      · obtain rfl := List.mem_singleton.mp hr
        exact endsBlock_nil hm
    · intro x hx hstop
      rw [Text.linesFrom_append, ← hstart] at hx
      rcases List.mem_append.mp hx with hx | hx
      · exact hbody x.2 (Text.mem_of_mem_linesFrom hx)
      · rcases List.mem_cons.mp hx with rfl | hx
        · exact (Nat.lt_irrefl _ hstop).elim
        · have := Text.le_of_mem_linesFrom hx
          omega
    · dsimp only
      omega
  | @unclosed before rest l marker info b hbefore ho hne hrest hb =>
    have hlines : splitAt '\n' t = (xs ++ before) ++ l :: rest := by rw [hsplit, List.append_assoc]
    have hfeed : ∀ x ∈ rest, '\n' ∉ x := fun x hx => Text.feedless_of_split hlines x (by simp [hx])
    have hraw : ∀ r ∈ splitAt '\n' (joinLines rest), endsBlock marker r = false := by
      rw [joinLines, Text.splitAt_join hne hfeed]
      exact hrest
    rw [hb, finish_unclosed]
    refine isGenuine_of_lines hlines hne ho hraw ?_ (.inr ⟨rfl, hrest⟩)
    intro x hx _
    exact hrest x.2 (Text.mem_of_mem_linesFrom hx)

theorem At.isGenuine (h : At t p xs ys) : ∀ b ∈ search t p, IsGenuine t b := by
  induction p using search_induction t generalizing xs ys with
  | hnone p hturn => simp [search_of_none hturn]
  | hsome p found q hturn ih =>
    have hstep := h.turn hturn
    obtain ⟨taken, left, -, hnext, -⟩ := hstep.next h.split
    intro b hb
    rw [search_of_some hturn] at hb
    rcases List.mem_append.mp hb with hb | hb
    · obtain rfl := Option.mem_toList.mp hb
      exact isGenuine_of_turn hstep h.split
    · rcases hnext with hat | ⟨rfl, -⟩
      · exact ih hat b hb
      · rw [search_length] at hb
        cases hb

/-! Opening lines -/

/-- At most three spaces, a marker, and a rest in which no backtick stands if the marker is made of them. -/
def IsOpeningLine (l : Text) : Prop :=
  ∃ indent marker rest, l = indent ++ (marker ++ rest) ∧ IsIndent indent ∧ IsMarker marker ∧
    ('\x60' ∈ marker → '\x60' ∉ rest)

theorem isSome_fenceOpening?_iff : (fenceOpening? l).isSome = true ↔ IsOpeningLine l := by
  rw [Option.isSome_iff_exists]
  constructor
  · rintro ⟨⟨marker, info⟩, ho⟩
    have hinfo := not_mem_of_fenceOpening? ho
    obtain ⟨indent, rest, rfl, hi, hm, -, rfl, -⟩ := fenceOpening?_eq_some_iff.mp ho
    refine ⟨indent, marker, rest, rfl, hi, hm, fun hc hrest => hinfo hc ?_⟩
    obtain ⟨b, e, heq, hb, he⟩ := Text.exists_strip rest
    rw [heq, List.mem_append, List.mem_append] at hrest
    rcases hrest with hmem | hmem | hmem
    · exact absurd (hb _ hmem) (by decide)
    · exact hmem
    · exact absurd (he _ hmem) (by decide)
  · rintro ⟨indent, marker, rest, rfl, hi, hm, hrest⟩
    -- a run that goes on behind the marker belongs to it
    obtain ⟨hlen, c, hfence, hall⟩ := hm
    obtain ⟨run, rest, rfl, hrun, hnext⟩ := Text.exists_run (· = c) rest
    have hsame : ∀ d ∈ marker ++ run, d = c := by
      intro d hd
      rcases List.mem_append.mp hd with hd | hd
      · exact hall d hd
      · simpa using hrun d hd
    have hmarker : IsMarker (marker ++ run) := ⟨by rw [List.length_append]; omega, c, hfence, hsame⟩
    have hhead : ∀ d ∈ rest.head?, d ∉ marker ++ run := by
      intro d hd hmem
      have hne := hnext d hd
      rw [hsame d hmem] at hne
      simp at hne
    have hallow : allowsInfo (marker ++ run) rest.strip = true := by
      unfold allowsInfo
      simp only [Bool.not_eq_true', Bool.and_eq_false_iff, decide_eq_false_iff_not]
      by_cases hc : '\x60' ∈ marker
      · refine .inr fun hinfo => hrest hc (List.mem_append_right _ ?_)
        exact (Text.strip_infix rest).subset hinfo
      · refine .inl fun hhead => hc ?_
        have hne : marker ≠ [] := List.ne_nil_of_length_pos (by omega)
        rw [List.head?_append_of_ne_nil _ hne] at hhead
        exact List.mem_of_mem_head? hhead
    refine ⟨(marker ++ run, rest.strip), fenceOpening?_eq_some_iff.mpr ?_⟩
    exact ⟨indent, rest, by simp, hi, hmarker, hhead, rfl, hallow⟩

theorem IsOpeningLine.isMarked (h : IsOpeningLine l) : isMarked l = true := by
  have hsome := isSome_fenceOpening?_iff.mpr h
  cases hmark : Markup.isMarked l with
  | true => rfl
  | false =>
    rw [fenceOpening?_of_not_isMarked hmark] at hsome
    cases hsome

/-- A turn looks at no marked line behind another one. -/
theorem marked?_first {x y : Nat × Text} (h : marked? t p = some y) (hx : x ∈ lineStarts t) (hp : p ≤ x.1)
    (hmark : isMarked x.2 = true) (hfeed : x.1 + x.2.length < t.length) : x = y ∨ y.1 + y.2.length < x.1 := by
  obtain ⟨-, as, bs, heq, has⟩ := List.find?_eq_some_iff_append.mp h
  have hpair := Text.pairwise_linesFrom 0 (splitAt '\n' t)
  rw [← lineStarts, heq] at hpair
  obtain ⟨-, htail, -⟩ := List.pairwise_append.mp hpair
  rw [heq] at hx
  rcases List.mem_append.mp hx with hx | hx
  · have htest := has x hx
    simp [hp, hmark, hfeed] at htest
  · rcases List.mem_cons.mp hx with rfl | hx
    · exact .inl rfl
    · exact .inr ((List.pairwise_cons.mp htail).1 x hx)

theorem placed_ends (t marker info : Text) (start p : Nat) : (placed t marker info start p).stop = t.length ∨
    ∃ y ∈ lineStarts t, (placed t marker info start p).stop = y.1 + y.2.length := by
  unfold placed
  dsimp only
  cases hc : closing? marker t p with
  | none => exact .inl rfl
  | some y => exact .inr ⟨y, List.mem_of_find?_eq_some hc, rfl⟩

/-- A turn goes on behind an opening line only if it finds a block with that line in it. -/
theorem covers_of_turn? {x : Nat × Text} (h : turn? t p = some (found, q)) (hx : x ∈ lineStarts t) (hp : p ≤ x.1)
    (ho : IsOpeningLine x.2) (hfeed : x.1 + x.2.length < t.length) :
    q ≤ x.1 ∨ ∃ b ∈ found, b.start ≤ x.1 ∧ x.1 + x.2.length ≤ b.stop := by
  obtain ⟨y, hy, hcase⟩ := turn?_cases h
  have hfirst := marked?_first hy hx hp ho.isMarked hfeed
  rcases hcase with ⟨hnone, -, rfl⟩ | ⟨marker, info, -, hfound, hq⟩
  · rcases hfirst with rfl | hlt
    · have hsome := isSome_fenceOpening?_iff.mpr ho
      rw [hnone] at hsome
      cases hsome
    · exact .inl hlt
  · by_cases hle : q ≤ x.1
    · exact .inl hle
    · subst hfound
      obtain ⟨-, hstop⟩ := start_of_turn? h
      have hstart : (placed t marker info y.1 (y.1 + y.2.length + 1)).start = y.1 := start_placed ..
      refine .inr ⟨_, rfl, ?_, ?_⟩
      · rw [hstart]
        rcases hfirst with rfl | hlt <;> omega
      · rw [← hq]
        rcases placed_ends t marker info y.1 (y.1 + y.2.length + 1) with hend | ⟨z, hz, hend⟩
        · omega
        · rcases Text.eq_or_lt_or_lt_of_mem hx hz with rfl | hlt | hlt <;> omega

/-- No opening line from an offset on is outside of all blocks that the search finds from there. -/
theorem covers_search {x : Nat × Text} (hx : x ∈ lineStarts t) (ho : IsOpeningLine x.2)
    (hfeed : x.1 + x.2.length < t.length) (hp : p ≤ x.1) :
    ∃ b ∈ search t p, b.start ≤ x.1 ∧ x.1 + x.2.length ≤ b.stop := by
  induction p using search_induction t with
  | hnone p hturn =>
    have hnone : marked? t p = none := Option.map_eq_none_iff.mp hturn
    have htest := List.find?_eq_none.mp hnone x hx
    simp [hp, ho.isMarked, hfeed] at htest
  | hsome p found q hturn ih =>
    rw [search_of_some hturn]
    rcases covers_of_turn? hturn hx hp ho hfeed with hq | ⟨b, hb, hplace⟩
    · obtain ⟨b, hb, hplace⟩ := ih hq
      exact ⟨b, List.mem_append_right _ hb, hplace⟩
    · exact ⟨b, List.mem_append_left _ (Option.mem_toList.mpr hb), hplace⟩

/-- The search comes to an end, its blocks are the fenced blocks of the text in the order of their lines, each is genuine,
no two of them overlap, and no opening line is outside of all of them. -/
theorem search_genuine (t : Text) :
    (∀ p found q, turn? t p = some (found, q) → p < q ∧ q ≤ t.length) ∧
      (search t 0).map (·.block) = fences t ∧
      (fences t).Pairwise (·.line < ·.line) ∧
      (∀ b ∈ search t 0, IsGenuine t b) ∧
      (search t 0).Pairwise (fun a b => a.stop ≤ b.start) ∧
      ∀ p l q, t = p ++ (l ++ '\n' :: q) → (∀ c ∈ p.getLast?, c = '\n') → '\n' ∉ l → IsOpeningLine l →
        ∃ b ∈ search t 0, b.start ≤ p.length ∧ p.length + l.length ≤ b.stop := by
  have hsplit : splitAt '\n' t = [] ++ splitAt '\n' t := rfl
  refine ⟨fun p found q h => turn?_advances h, map_search t, (pairwise_fencesFrom (by simp)).1,
    (At.of_split hsplit).isGenuine, pairwise_search t 0, ?_⟩
  rintro p l q rfl hp hl ho
  have hmem := Text.mem_lineStarts (q := '\n' :: q) hp hl (by simp)
  exact covers_search hmem ho (by simp) (Nat.zero_le _)

end Runbook.Markup
