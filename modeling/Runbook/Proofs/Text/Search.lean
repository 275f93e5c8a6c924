import Mathlib.Data.List.Infix
import Mathlib.Data.List.TakeWhile
import Runbook.Text.Pieces
import Runbook.Text.Blank

/-! What the readers of `Text` find, said by how the text is put together. -/
namespace Runbook.Text

variable {p q t u b r : Text} {c d : Char} {f g : Char → Bool}

theorem after?_eq_some_iff : after? p t = some r ↔ t = p ++ r := by
  induction p generalizing t with
  | nil => simp [after?, eq_comm]
  | cons c p ih =>
    cases t with
    | nil => simp [after?]
    | cons d t =>
      by_cases h : c = d
      · simp [after?, h, ih]
      · have h' : d ≠ c := Ne.symm h
        simp [after?, h, h']

@[simp] theorem after?_append (p r : Text) : after? p (p ++ r) = some r :=
  after?_eq_some_iff.mpr rfl

theorem startsWith_iff : startsWith t p = true ↔ p <+: t := List.isPrefixOf_iff_prefix

theorem endsWith_iff : endsWith t p = true ↔ p <:+ t := List.isSuffixOf_iff_suffix

theorem includes_iff : includes t p = true ↔ p <:+: t := by
  induction t with
  | nil => simp [includes]
  | cons c t ih =>
    simp only [includes, Bool.or_eq_true, ih, List.isPrefixOf_iff_prefix, List.infix_cons_iff]

/-- What has no character of one part stands in the other. -/
theorem infix_of_append_left (h : p <:+: b ++ r) (hp : ∀ c ∈ p, c ∉ b) : p <:+: r := by
  rcases List.infix_append_iff.mp h with h | h | ⟨x, y, rfl, hx, hy⟩
  · cases p with
    | nil => exact List.nil_infix
    | cons c p => exact (hp c List.mem_cons_self (h.subset List.mem_cons_self)).elim
  · exact h
  · cases x with
    | nil => exact hy.isInfix
    | cons c x => exact (hp c (by simp) (hx.subset List.mem_cons_self)).elim

theorem infix_of_append_right (h : p <:+: b ++ r) (hp : ∀ c ∈ p, c ∉ r) : p <:+: b := by
  rcases List.infix_append_iff.mp h with h | h | ⟨x, y, rfl, hx, hy⟩
  · exact h
  · cases p with
    | nil => exact List.nil_infix
    | cons c p => exact (hp c List.mem_cons_self (h.subset List.mem_cons_self)).elim
  · cases y with
    | nil => simpa using hx.isInfix
    | cons c y => exact (hp c (by simp) (hy.subset List.mem_cons_self)).elim

/-- The text before a mark ends where the mark stands for the first time. -/
theorem before?_eq_some_iff (hp : p ≠ []) :
    before? p t = some b ↔ b ++ p <+: t ∧ ¬ p <:+: b ++ p.dropLast := by
  have hlen : 0 < p.length := List.length_pos_iff.mpr hp
  induction t generalizing b with
  | nil => simp [before?, hp]
  | cons c t ih =>
    by_cases h : p <+: c :: t
    · have hb : before? p (c :: t) = some [] := by simp [before?, h]
      rw [hb]
      constructor
      · rintro ⟨⟩
        refine ⟨h, fun hi => ?_⟩
        have := hi.length_le
        simp at this
        omega
      · rintro ⟨hbt, hfirst⟩
        by_contra hne
        have hb0 : 0 < b.length := List.length_pos_iff.mpr fun he => hne (by rw [he])
        have hcut : b ++ p.dropLast <+: c :: t :=
          ((List.prefix_append_right_inj b).mpr (List.dropLast_prefix p)).trans hbt
        refine hfirst (List.prefix_of_prefix_length_le h hcut ?_).isInfix
        simp
        omega
    · have hb : before? p (c :: t) = (before? p t).map (c :: ·) := by simp [before?, h]
      rw [hb, Option.map_eq_some_iff]
      constructor
      · rintro ⟨b, hb, rfl⟩
        obtain ⟨hbt, hfirst⟩ := ih.mp hb
        refine ⟨by simpa using hbt, fun hi => ?_⟩
        rw [List.cons_append, List.infix_cons_iff] at hi
        rcases hi with hi | hi
        · refine h (hi.trans ?_)
          rw [List.cons_prefix_cons]
          exact ⟨rfl, ((List.prefix_append_right_inj b).mpr (List.dropLast_prefix p)).trans hbt⟩
        · exact hfirst hi
      · rintro ⟨hbt, hfirst⟩
        cases b with
        | nil => exact (h hbt).elim
        | cons d b =>
          simp only [List.cons_append, List.cons_prefix_cons] at hbt
          obtain ⟨rfl, hbt⟩ := hbt
          exact ⟨b, ih.mpr ⟨hbt, fun hi => hfirst (List.infix_cons hi)⟩, rfl⟩

theorem before?_eq_none_iff (hp : p ≠ []) : before? p t = none ↔ ¬ p <:+: t := by
  induction t with
  | nil => simp [before?, hp]
  | cons c t ih =>
    by_cases h : p <+: c :: t
    · simp [before?, h, h.isInfix]
    · simp [before?, h, ih, List.infix_cons_iff]

/-- A text that holds a mark can be cut where the mark stands for the first time. -/
theorem exists_before? (hp : p ≠ []) (h : p <:+: t) : ∃ b, before? p t = some b := by
  cases hb : before? p t with
  | none => exact ((before?_eq_none_iff hp).mp hb h).elim
  | some b => exact ⟨b, rfl⟩

/-- Any text is a run of a class and a rest that does not go on with it. -/
theorem exists_run (f : Char → Bool) (t : Text) :
    ∃ b r, t = b ++ r ∧ (∀ c ∈ b, f c = true) ∧ ∀ c ∈ r.head?, f c = false := by
  refine ⟨t.takeWhile f, t.dropWhile f, List.takeWhile_append_dropWhile.symm,
    fun c hc => List.mem_takeWhile_imp hc, fun c hc => ?_⟩
  have := List.head?_dropWhile_not f t
  rw [hc] at this
  exact this

/-- A run of a class is read up to the first character outside of it. -/
theorem takeWhile_run (hb : ∀ c ∈ b, f c = true) (hr : ∀ c ∈ r.head?, f c = false) :
    (b ++ r).takeWhile f = b := by
  rw [List.takeWhile_append_of_pos hb]
  cases r <;> simp_all

theorem dropWhile_run (hb : ∀ c ∈ b, f c = true) (hr : ∀ c ∈ r.head?, f c = false) :
    (b ++ r).dropWhile f = r := by
  rw [List.dropWhile_append_of_pos hb]
  cases r <;> simp_all

/-- A text is cut at the first separator. -/
theorem cut_append (h : c ∉ b) (r : Text) : cut c (b ++ c :: r) = (b, some r) := by
  have hb : ∀ d ∈ b, decide (d ≠ c) = true := by
    intro d hd
    rw [decide_eq_true_iff]
    rintro rfl
    exact h hd
  have hc : ∀ d ∈ (c :: r).head?, decide (d ≠ c) = false := by
    rintro d ⟨⟩
    simp
  rw [cut, List.span_eq_takeWhile_dropWhile, takeWhile_run hb hc, dropWhile_run hb hc]

theorem fst_cut (c : Char) (t : Text) : (cut c t).1 = t.takeWhile (· ≠ c) := by
  rw [cut, List.span_eq_takeWhile_dropWhile]
  split <;> simp_all

theorem fst_cut_append (h : c ∉ b) (r : Text) : (cut c (b ++ r)).1 = b ++ (cut c r).1 := by
  rw [fst_cut, fst_cut, List.takeWhile_append_of_pos]
  intro d hd
  rw [decide_eq_true_iff]
  rintro rfl
  exact h hd

theorem cut_of_not_mem (h : c ∉ t) : cut c t = (t, none) := by
  have ht : ∀ d ∈ t, decide (d ≠ c) = true := by
    intro d hd
    rw [decide_eq_true_iff]
    rintro rfl
    exact h hd
  have hrest := dropWhile_run (r := []) ht (by simp)
  have hrun := takeWhile_run (r := []) ht (by simp)
  rw [List.append_nil] at hrest hrun
  rw [cut, List.span_eq_takeWhile_dropWhile, hrun, hrest]

theorem dropEndWhile_isPrefix (f : Char → Bool) (t : Text) : dropEndWhile f t <+: t := by
  rw [dropEndWhile, ← List.reverse_suffix, List.reverse_reverse]
  exact List.dropWhile_suffix f

theorem trim_infix (f : Char → Bool) (t : Text) : trim f t <:+: t :=
  (dropEndWhile_isPrefix f _).isInfix.trans (List.dropWhile_suffix f).isInfix

theorem strip_infix (t : Text) : strip t <:+: t := trim_infix isBlank t

theorem exists_dropEndWhile (f : Char → Bool) (t : Text) :
    ∃ e, t = dropEndWhile f t ++ e ∧ ∀ c ∈ e, f c = true := by
  refine ⟨(t.reverse.takeWhile f).reverse, ?_, fun c hc => ?_⟩
  · rw [dropEndWhile, ← List.reverse_append, List.takeWhile_append_dropWhile, List.reverse_reverse]
  · exact List.mem_takeWhile_imp (List.mem_reverse.mp hc)

/-- A text is its inside between characters of a class. -/
theorem exists_trim (f : Char → Bool) (t : Text) :
    ∃ b e, t = b ++ (trim f t ++ e) ∧ (∀ c ∈ b, f c = true) ∧ ∀ c ∈ e, f c = true := by
  obtain ⟨b, r, rfl, hb, hr⟩ := exists_run f t
  rw [trim, dropWhile_run hb hr]
  obtain ⟨e, he, hend⟩ := exists_dropEndWhile f r
  exact ⟨b, e, by rw [← he], hb, hend⟩

theorem exists_strip (t : Text) :
    ∃ b e, t = b ++ (strip t ++ e) ∧ (∀ c ∈ b, isBlank c = true) ∧ ∀ c ∈ e, isBlank c = true :=
  exists_trim isBlank t

theorem head_trim (f : Char → Bool) (t : Text) : ∀ c ∈ (trim f t).head?, f c = false := by
  obtain ⟨s, hs⟩ := dropEndWhile_isPrefix f (t.dropWhile f)
  intro c hc
  have hfirst := List.head?_dropWhile_not f t
  rw [← hs, List.head?_append, show (dropEndWhile f (t.dropWhile f)).head? = some c from hc] at hfirst
  exact hfirst

theorem last_dropEndWhile (f : Char → Bool) (t : Text) : ∀ c ∈ (dropEndWhile f t).getLast?, f c = false := by
  intro c hc
  have hfirst := List.head?_dropWhile_not f t.reverse
  rw [dropEndWhile, List.getLast?_reverse] at hc
  rw [hc] at hfirst
  exact hfirst

theorem last_trim (f : Char → Bool) (t : Text) : ∀ c ∈ (trim f t).getLast?, f c = false :=
  last_dropEndWhile f (t.dropWhile f)

theorem dropEndWhile_run (he : ∀ c ∈ q, f c = true) (ht : ∀ c ∈ t.getLast?, f c = false) :
    dropEndWhile f (t ++ q) = t := by
  rw [dropEndWhile, List.reverse_append, dropWhile_run (by simpa using he) (by simpa using ht), List.reverse_reverse]

/-- What stands between characters of a class is their inside, if it neither starts nor ends with one. -/
theorem trim_run (hb : ∀ c ∈ b, f c = true) (he : ∀ c ∈ q, f c = true) (hhead : ∀ c ∈ t.head?, f c = false)
    (hlast : ∀ c ∈ t.getLast?, f c = false) : trim f (b ++ (t ++ q)) = t := by
  cases t with
  | nil =>
    have hall : ∀ c ∈ b ++ q, f c = true := fun c hc => (List.mem_append.mp hc).elim (hb c) (he c)
    rw [trim, List.nil_append, List.dropWhile_eq_nil_iff.mpr hall]
    rfl
  | cons c t => rw [trim, dropWhile_run hb (r := c :: t ++ q) hhead, dropEndWhile_run he hlast]

theorem trim_trim (f : Char → Bool) (t : Text) : trim f (trim f t) = trim f t := by
  have htrim := trim_run (b := []) (q := []) (by simp) (by simp) (head_trim f t) (last_trim f t)
  rwa [List.nil_append, List.append_nil] at htrim

theorem strip_strip (t : Text) : strip (strip t) = strip t := trim_trim isBlank t

theorem strip_of_not_blank (h : ∀ c ∈ t, isBlank c = false) : strip t = t := by
  have htrim := trim_run (b := []) (t := t) (q := []) (f := isBlank) (by simp) (by simp)
    (fun c hc => h c (List.mem_of_mem_head? hc)) fun c hc => h c (List.mem_of_mem_getLast? hc)
  simpa [strip] using htrim

theorem strip_cons (hc : isBlank c = false) (t : Text) : ∃ w, strip (c :: t) = c :: w := by
  have hdrop : strip (c :: t) = dropEndWhile isBlank (c :: t) := by
    rw [strip, trim, List.dropWhile_cons_of_neg (by simp [hc])]
  obtain ⟨e, he, hblank⟩ := exists_dropEndWhile isBlank (c :: t)
  rw [hdrop]
  cases hw : dropEndWhile isBlank (c :: t) with
  | nil =>
    rw [hw, List.nil_append] at he
    have hin := hblank c (he ▸ List.mem_cons_self)
    rw [hc] at hin
    cases hin
  | cons d w =>
    rw [hw] at he
    exact ⟨w, by rw [(List.cons.inj he).1]⟩

theorem dropEndWhile_append (he : ∀ c ∈ q, f c = true) (t : Text) :
    dropEndWhile f (t ++ q) = dropEndWhile f t := by
  rw [dropEndWhile, dropEndWhile, List.reverse_append, List.dropWhile_append_of_pos (by simpa using he)]

theorem trim_append (he : ∀ c ∈ q, f c = true) (t : Text) : trim f (t ++ q) = trim f t := by
  obtain ⟨b, r, rfl, hb, hr⟩ := exists_run f t
  cases r with
  | nil =>
    have hall : ∀ c ∈ b ++ q, f c = true := fun c hc => (List.mem_append.mp hc).elim (hb c) (he c)
    rw [List.append_nil, trim, trim, List.dropWhile_eq_nil_iff.mpr hall, List.dropWhile_eq_nil_iff.mpr hb]
  | cons c r =>
    rw [trim, trim, List.append_assoc, dropWhile_run hb hr, dropWhile_run hb (r := c :: r ++ q) hr,
      dropEndWhile_append he]

/-- The first word is what stands up to the first blank after it. -/
theorem exists_firstWord (t : Text) :
    ∃ b r, t = b ++ (firstWord t ++ r) ∧ (∀ c ∈ b, isBlank c = true) ∧
      (∀ c ∈ firstWord t, isBlank c = false) ∧ ∀ c ∈ r.head?, isBlank c = true := by
  obtain ⟨b, s, rfl, hb, hs⟩ := exists_run isBlank t
  obtain ⟨w, r, rfl, hw, hr⟩ := exists_run (!isBlank ·) s
  rw [firstWord, dropWhile_run hb hs, takeWhile_run hw hr]
  exact ⟨b, r, rfl, hb, by simpa using hw, by simpa using hr⟩

/-- What comes after the first word. -/
def afterWord (t : Text) : Text := (t.dropWhile isBlank).dropWhile (!isBlank ·)

theorem eq_firstWord_append (hhead : ∀ c ∈ t.head?, isBlank c = false) : t = firstWord t ++ afterWord t ∧
    (∀ c ∈ firstWord t, isBlank c = false) ∧ ∀ c ∈ (afterWord t).head?, isBlank c = true := by
  obtain ⟨w, r, rfl, hw, hr⟩ := exists_run (!isBlank ·) t
  have hdrop : (w ++ r).dropWhile isBlank = w ++ r := dropWhile_run (b := []) (by simp) hhead
  rw [firstWord, afterWord, hdrop, takeWhile_run hw hr, dropWhile_run hw hr]
  exact ⟨rfl, by simpa using hw, by simpa using hr⟩

/-- The first blank, if there is one, is a space. -/
def IsSpaced (t : Text) : Prop := ∀ c ∈ t.find? isBlank, c = ' '

instance (t : Text) : Decidable (IsSpaced t) :=
  decidable_of_iff ((t.find? isBlank).all (· == ' ') = true) (by simp [IsSpaced, Option.all_eq_true])

theorem isSpaced_iff (hhead : ∀ c ∈ t.head?, isBlank c = false) : IsSpaced t ↔ ∀ c ∈ (afterWord t).head?, c = ' ' := by
  obtain ⟨ht, hw, hr⟩ := eq_firstWord_append hhead
  have hnone : (firstWord t).find? isBlank = none := by simpa using hw
  have hfind : t.find? isBlank = (afterWord t).head? := by
    conv_lhs => rw [ht, List.find?_append, hnone, Option.none_or]
    cases hrest : afterWord t with
    | nil => rfl
    | cons c r =>
      rw [hrest] at hr
      exact List.find?_cons_of_pos (hr c rfl)
  rw [IsSpaced, hfind]

/-- Cut at a space, a text falls apart behind its first word if its first blank is a space, and only then. -/
theorem cut_space_cases (hhead : ∀ c ∈ t.head?, isBlank c = false) :
    (IsSpaced t ∧ (t.cut ' ').1 = firstWord t ∧ strip ((t.cut ' ').2.getD []) = strip (afterWord t)) ∨
      ¬ IsSpaced t ∧ (firstWord t).length < (t.cut ' ').1.length := by
  obtain ⟨ht, hw, hr⟩ := eq_firstWord_append hhead
  have hspace : ' ' ∉ firstWord t := fun h => absurd (hw ' ' h) (by decide)
  rw [isSpaced_iff hhead]
  cases hrest : afterWord t with
  | nil =>
    rw [hrest, List.append_nil] at ht
    rw [← ht] at hspace
    refine .inl ⟨by simp, ?_, ?_⟩
    · rw [cut_of_not_mem hspace]
      exact ht
    · rw [cut_of_not_mem hspace]
      rfl
  | cons c r =>
    rw [hrest] at ht
    by_cases hc : c = ' '
    · subst hc
      refine .inl ⟨by simp, ?_, ?_⟩
      · conv_lhs => rw [ht, cut_append hspace]
      · conv_lhs => rw [ht, cut_append hspace]
        rfl
    · refine .inr ⟨by simp [hc], ?_⟩
      have hword : ' ' ∉ firstWord t ++ [c] := by
        rw [List.mem_append, not_or]
        exact ⟨hspace, by simpa using Ne.symm hc⟩
      conv_rhs => rw [ht, List.append_cons, fst_cut_append hword]
      simp only [List.length_append, List.length_singleton]
      omega

end Runbook.Text
