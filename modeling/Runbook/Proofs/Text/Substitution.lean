import Mathlib.Data.List.Infix
import Runbook.Text.Pieces

/-! Where a pattern reads something in a text, and how long a text is once each reading is replaced. -/
namespace Runbook.Text

variable {α : Type} {m : Pattern α} {f : α → Text} {b : Option Char} {t p r s : Text} {a : α} {k n : Nat}

def Reads (m : Pattern α) (b : Option Char) (t : Text) : Prop := ∃ a n, m b t = some (a, n + 1)

/-- Nothing is read anywhere in a text that follows the character `b`. -/
def Silent (m : Pattern α) : Option Char → Text → Prop
  | _, [] => True
  | b, c :: t => ¬ Reads m b (c :: t) ∧ Silent m (some c) t

/-- What is put in place of a reading is shorter than the reading, which the text really holds. -/
def Shrinks (m : Pattern α) (f : α → Text) : Prop :=
  ∀ b t a n, m b t = some (a, n + 1) → (f a).length ≤ n ∧ n < t.length

/-- The character before the rest of a text of which `p` has been read. -/
def lastBefore (b : Option Char) (p : Text) : Option Char := p.getLast?.or b

@[simp] theorem lastBefore_cons (b : Option Char) (c : Char) (p : Text) :
    lastBefore b (c :: p) = lastBefore (some c) p := by
  cases p <;> simp [lastBefore, List.getLast?_cons]

theorem lastBefore_append (before : Option Char) (s t : Text) :
    lastBefore before (s ++ t) = lastBefore (lastBefore before s) t := by
  rw [lastBefore, lastBefore, lastBefore, List.getLast?_append, Option.or_assoc]

theorem silent_iff : Silent m b t ↔ ∀ p r, t = p ++ r → r ≠ [] → ¬ Reads m (lastBefore b p) r := by
  induction t generalizing b with
  | nil => simp [Silent]
  | cons c t ih =>
    rw [Silent, ih]
    constructor
    · rintro ⟨hc, ht⟩ p r he hr
      cases p with
      | nil =>
        rw [List.nil_append] at he
        exact he ▸ hc
      | cons d p =>
        rw [List.cons_append] at he
        obtain ⟨rfl, htp⟩ := List.cons.inj he
        rw [lastBefore_cons]
        exact ht p r htp hr
    · intro h
      refine ⟨h [] (c :: t) rfl (by simp), fun p r he hr => ?_⟩
      have := h (c :: p) r (by rw [he, List.cons_append]) hr
      rwa [lastBefore_cons] at this

theorem piecesFrom_of_silent (h : Silent m b t) : piecesFrom m b 0 t = t.map .plain := by
  induction t generalizing b with
  | nil => simp [piecesFrom]
  | cons c t ih =>
    obtain ⟨hc, ht⟩ := h
    rw [piecesFrom]
    split
    · exact (hc ⟨_, _, ‹_›⟩).elim
    · rw [ih ht, List.map_cons]

/-- Nothing is read at any place of a text, whatever comes before and after it. -/
def Skips (m : Pattern α) (t : Text) : Prop := ∀ b p q r, t = p ++ q → q ≠ [] → m b (q ++ r) = none

theorem Skips.tail {c : Char} (h : Skips m (c :: t)) : Skips m t :=
  fun b p q r ht hq => h b (c :: p) q r (by rw [ht, List.cons_append]) hq

theorem Skips.piecesFrom_append (h : Skips m p) (b : Option Char) (t : Text) :
    piecesFrom m b 0 (p ++ t) = p.map .plain ++ piecesFrom m (lastBefore b p) 0 t := by
  induction p generalizing b with
  | nil => rfl
  | cons c p ih =>
    have hnone : m b (c :: (p ++ t)) = none := h b [] (c :: p) t rfl (by simp)
    rw [List.cons_append, piecesFrom, hnone, ih h.tail, lastBefore_cons]
    rfl

/-- The characters of a hit are passed over. -/
theorem piecesFrom_length (m : Pattern α) (b : Option Char) (p t : Text) :
    piecesFrom m b p.length (p ++ t) = piecesFrom m (lastBefore b p) 0 t := by
  induction p generalizing b with
  | nil => rfl
  | cons c p ih => rw [List.length_cons, List.cons_append, piecesFrom, ih, lastBefore_cons]

theorem piecesFrom_hit (h : m b (p ++ t) = some (a, p.length)) (hp : p ≠ []) :
    piecesFrom m b 0 (p ++ t) = .hit a p :: piecesFrom m (lastBefore b p) 0 t := by
  obtain ⟨c, p, rfl⟩ := List.exists_cons_of_ne_nil hp
  have hread : m b (c :: (p ++ t)) = some (a, p.length + 1) := h
  have hsource : (c :: (p ++ t)).take (p.length + 1) = c :: p := by
    rw [List.take_succ_cons, List.take_left]
  rw [List.cons_append, piecesFrom, hread]
  dsimp only
  rw [hsource, piecesFrom_length, lastBefore_cons]

/-- What stands before a text matters only to its first reading. -/
theorem piecesFrom_congr {b b' : Option Char} (h : ∀ r, m b' r = m b r) (t : Text) :
    piecesFrom m b' 0 t = piecesFrom m b 0 t := by
  cases t with
  | nil => rfl
  | cons c t => rw [piecesFrom, piecesFrom, h]

/-- Each piece that is a hit was read somewhere in the text. -/
theorem reads_of_mem_piecesFrom (h : .hit a s ∈ piecesFrom m b k t) :
    ∃ p r n, t = p ++ r ∧ m (lastBefore b p) r = some (a, n + 1) ∧ s = r.take (n + 1) := by
  fun_induction piecesFrom m b k t with
  | case1 => simp at h
  | case2 b k c t ih =>
    obtain ⟨p, r, n, rfl, hm, hs⟩ := ih h
    exact ⟨c :: p, r, n, rfl, by rwa [lastBefore_cons], hs⟩
  | case3 b c t a' n hm ih =>
    rcases List.mem_cons.mp h with h | h
    · cases h
      exact ⟨[], c :: t, n, rfl, hm, rfl⟩
    · obtain ⟨p, r, n, rfl, hm, hs⟩ := ih h
      exact ⟨c :: p, r, n, rfl, by rwa [lastBefore_cons], hs⟩
  | case4 b c t hm ih =>
    rcases List.mem_cons.mp h with h | h
    · cases h
    · obtain ⟨p, r, n, rfl, hm, hs⟩ := ih h
      exact ⟨c :: p, r, n, rfl, by rwa [lastBefore_cons], hs⟩

theorem exists_piece_of_mem_hitsFrom {ps : List (Piece α)} {o l : Nat} {h : Hit α}
    (hh : h ∈ hitsFrom o l ps) : ∃ s, .hit h.value s ∈ ps ∧ h.length = s.length := by
  induction ps generalizing o l with
  | nil => simp [hitsFrom] at hh
  | cons q ps ih =>
    cases q with
    | plain c =>
      obtain ⟨s, hs, hl⟩ := ih hh
      exact ⟨s, List.mem_cons_of_mem _ hs, hl⟩
    | hit a s =>
      rcases List.mem_cons.mp hh with rfl | hh
      · exact ⟨s, List.mem_cons_self, rfl⟩
      · obtain ⟨s, hs, hl⟩ := ih hh
        exact ⟨s, List.mem_cons_of_mem _ hs, hl⟩

theorem exists_mem_hitsFrom {ps : List (Piece α)} (hp : .hit a s ∈ ps) (o l : Nat) :
    ∃ h ∈ hitsFrom o l ps, h.value = a ∧ h.length = s.length := by
  induction ps generalizing o l with
  | nil => cases hp
  | cons q ps ih =>
    cases q with
    | plain c =>
      rw [hitsFrom]
      exact ih (by simpa using hp) _ _
    | hit a' s' =>
      rw [hitsFrom]
      rcases List.mem_cons.mp hp with he | hp
      · cases he
        exact ⟨_, List.mem_cons_self, rfl, rfl⟩
      · obtain ⟨h, hh, hread⟩ := ih hp (o + s'.length) (l + s'.count '\n')
        exact ⟨h, List.mem_cons_of_mem _ hh, hread⟩

theorem reads_of_mem_hits {h : Hit α} (hh : h ∈ hits m t) :
    ∃ p r n, t = p ++ r ∧ m (lastBefore none p) r = some (h.value, n + 1) := by
  obtain ⟨s, hs, _⟩ := exists_piece_of_mem_hitsFrom hh
  obtain ⟨p, r, n, ht, hm, _⟩ := reads_of_mem_piecesFrom hs
  exact ⟨p, r, n, ht, hm⟩

theorem hitsFrom_plain (o l : Nat) (t : Text) : hitsFrom o l (t.map (.plain : Char → Piece α)) = [] := by
  induction t generalizing o l with
  | nil => rfl
  | cons c t ih => rw [List.map_cons, hitsFrom, ih]

theorem hitsFrom_append (o l : Nat) (ps qs : List (Piece α)) :
    hitsFrom o l (ps ++ qs) = hitsFrom o l ps ++
      hitsFrom (o + (ps.flatMap Piece.source).length) (l + (ps.flatMap Piece.source).count '\n') qs := by
  induction ps generalizing o l with
  | nil => rfl
  | cons q ps ih =>
    rw [List.flatMap_cons, List.length_append, List.count_append, ← Nat.add_assoc, ← Nat.add_assoc]
    cases q with
    | plain c =>
      rw [List.cons_append, hitsFrom, hitsFrom, ih]
      by_cases hc : c = '\n' <;> simp [Piece.source, hc]
    | hit a s => rw [List.cons_append, hitsFrom, hitsFrom, ih, List.cons_append, Piece.source]

theorem hitsFrom_eq_nil_iff {o l : Nat} : hitsFrom o l (piecesFrom m b 0 t) = [] ↔ Silent m b t := by
  constructor
  · intro h
    induction t generalizing b o l with
    | nil => trivial
    | cons c t ih =>
      rw [piecesFrom] at h
      split at h
      · cases h
      · rename_i hm
        rw [hitsFrom] at h
        refine ⟨?_, ih h⟩
        rintro ⟨a, n, hr⟩
        exact hm a n hr
  · intro h
    rw [piecesFrom_of_silent h, hitsFrom_plain]

theorem hits_eq_nil_iff : hits m t = [] ↔ Silent m none t := hitsFrom_eq_nil_iff

theorem le_offset_of_mem_hitsFrom {ps : List (Piece α)} {o l : Nat} {h : Hit α}
    (hh : h ∈ hitsFrom o l ps) : o ≤ h.offset := by
  induction ps generalizing o l with
  | nil => cases hh
  | cons q ps ih =>
    cases q with
    | plain c =>
      have := ih hh
      omega
    | hit a s =>
      rcases List.mem_cons.mp hh with rfl | hh
      · exact Nat.le_refl _
      · have := ih hh
        omega

theorem meets_eq_false_iff : meets m t = false ↔ Silent m none t := by
  rw [← hits_eq_nil_iff, meets]
  simp

/-- Where all that counts is what a text starts with, nothing is read in a text that holds no such start. -/
theorem silent_iff_not_infix {P : Text → Prop} (hm : ∀ b t, Reads m b t ↔ ∃ s, P s ∧ s <+: t)
    (hP : ∀ s, P s → s ≠ []) : Silent m b t ↔ ∀ s, P s → ¬ s <:+: t := by
  rw [silent_iff]
  constructor
  · rintro h s hs ⟨p, q, rfl⟩
    refine h p (s ++ q) (List.append_assoc ..) (by simp [hP s hs]) ((hm _ _).mpr ⟨s, hs, ?_⟩)
    exact List.prefix_append s q
  · rintro h p r rfl - hr
    obtain ⟨s, hs, hsr⟩ := (hm _ _).mp hr
    exact h s hs (hsr.isInfix.trans (List.suffix_append p r).isInfix)

/-- No run of a class is found exactly where no character of the class stands. -/
theorem silent_runOf_iff {q : Char → Bool} : Silent (runOf q) b t ↔ ∀ c ∈ t, q c = false := by
  induction t generalizing b with
  | nil => simp [Silent]
  | cons c t ih =>
    rw [Silent, ih, List.forall_mem_cons]
    refine and_congr_left' ?_
    cases hc : q c <;> simp [Reads, runOf, hc]

/-- A piece after the replacement of hits. -/
def Piece.replaced (f : α → Text) : Piece α → Text
  | .plain c => [c]
  | .hit a _ => f a

theorem substitute_eq (m : Pattern α) (f : α → Text) (t : Text) :
    substitute m f t = (pieces m t).flatMap (Piece.replaced f) := rfl

theorem substitute_of_silent (h : Silent m none t) : substitute m f t = t := by
  rw [substitute_eq, pieces, piecesFrom_of_silent h, List.flatMap_map]
  simp [Piece.replaced]

theorem length_replaced_le (hf : Shrinks m f) (hk : k ≤ t.length) :
    ((piecesFrom m b k t).flatMap (Piece.replaced f)).length ≤ t.length - k := by
  fun_induction piecesFrom m b k t with
  | case1 => simp
  | case2 b k c t ih =>
    have := ih (by simpa using hk)
    simp only [List.length_cons]
    omega
  | case3 b c t a n hm ih =>
    obtain ⟨ha, hn⟩ := hf _ _ _ _ hm
    have := ih (by simpa [Nat.lt_succ_iff] using hn)
    simp only [List.flatMap_cons, List.length_append, Piece.replaced, List.length_cons] at hn ⊢
    omega
  | case4 b c t hm ih =>
    have := ih (by simp)
    simp only [List.flatMap_cons, List.length_append, Piece.replaced, List.length_cons] at this ⊢
    simp only [List.length_nil]
    omega

theorem length_replaced_lt (hf : Shrinks m f) (h : ¬ Silent m b t) :
    ((piecesFrom m b 0 t).flatMap (Piece.replaced f)).length < t.length := by
  induction t generalizing b with
  | nil => exact (h trivial).elim
  | cons c t ih =>
    rw [piecesFrom]
    split
    · rename_i a n hm
      obtain ⟨ha, hn⟩ := hf _ _ _ _ hm
      have := length_replaced_le (b := some c) (k := n) (t := t) hf (by simpa [Nat.lt_succ_iff] using hn)
      simp only [List.flatMap_cons, List.length_append, Piece.replaced, List.length_cons] at hn ⊢
      omega
    · rename_i hm
      have hsilent : ¬ Reads m b (c :: t) := by
        rintro ⟨a, n, hr⟩
        exact hm a n hr
      have := ih (b := some c) fun ht => h ⟨hsilent, ht⟩
      simp only [List.flatMap_cons, List.length_append, Piece.replaced, List.length_cons] at this ⊢
      simp only [List.length_nil]
      omega

/-- A substitution that shrinks leaves exactly those texts as they are in which nothing is read. -/
theorem substitute_eq_self_iff (hf : Shrinks m f) : substitute m f t = t ↔ Silent m none t := by
  constructor
  · intro h
    by_contra hs
    have := length_replaced_lt hf hs
    rw [← pieces, ← substitute_eq, h] at this
    exact Nat.lt_irrefl _ this
  · exact substitute_of_silent

theorem length_substitute_lt (hf : Shrinks m f) (h : substitute m f t ≠ t) :
    (substitute m f t).length < t.length :=
  length_replaced_lt hf fun hs => h (substitute_of_silent hs)

/-! A text in two parts -/

/-- What is read in a text is read there whatever follows. -/
def Stable (m : Pattern α) (t : Text) : Prop := ∀ b p r s, t = p ++ r → r ≠ [] → m b (r ++ s) = m b r

/-- No reading goes beyond the text that it is read in. -/
def Within (m : Pattern α) : Prop := ∀ b t a n, m b t = some (a, n) → n ≤ t.length

theorem Stable.tail {c : Char} (h : Stable m (c :: t)) : Stable m t :=
  fun b p r s ht hr => h b (c :: p) r s (by rw [ht, List.cons_append]) hr

theorem piecesFrom_of_stable (hm : Within m) (ht : Stable m t) (hk : k ≤ t.length) (r : Text) :
    piecesFrom m b k (t ++ r) = piecesFrom m b k t ++ piecesFrom m (lastBefore b t) 0 r := by
  fun_induction piecesFrom m b k t with
  | case1 b k =>
    obtain rfl := Nat.le_zero.mp hk
    rfl
  | case2 b k c t ih =>
    rw [List.cons_append, piecesFrom, lastBefore_cons]
    exact ih ht.tail (by simpa using hk)
  | case3 b c t a n h ih =>
    have hsame : m b (c :: (t ++ r)) = some (a, n + 1) := (ht b [] (c :: t) r rfl (by simp)).trans h
    have hn : n ≤ t.length := by simpa using hm _ _ _ _ h
    have htake : (c :: (t ++ r)).take (n + 1) = (c :: t).take (n + 1) := by
      rw [List.take_succ_cons, List.take_succ_cons, List.take_append_of_le_length hn]
    rw [List.cons_append, piecesFrom, hsame]
    dsimp only
    rw [htake, ih ht.tail hn, lastBefore_cons, List.cons_append]
  | case4 b c t h ih =>
    have hsame : m b (c :: (t ++ r)) = m b (c :: t) := ht b [] (c :: t) r rfl (by simp)
    rw [List.cons_append, piecesFrom]
    split
    · rename_i a n hread
      exact (h a n (hsame.symm.trans hread)).elim
    · rw [ih ht.tail (Nat.zero_le _), lastBefore_cons, List.cons_append]

theorem hits_append (hm : Within m) (ht : Stable m t) (r : Text) :
    hits m (t ++ r) = hits m t ++ hitsFrom t.length (1 + t.count '\n') (piecesFrom m (lastBefore none t) 0 r) := by
  have hsource : (piecesFrom m none 0 t).flatMap Piece.source = t := source_pieces m t
  rw [hits, pieces, piecesFrom_of_stable hm ht (Nat.zero_le _), hitsFrom_append, hsource, Nat.zero_add]
  rfl

/-- Where what is read in the first part does not depend on the second, each part is replaced on its own. -/
theorem substitute_append (hm : Within m) (ht : Stable m t) (hlast : ∀ r, m (lastBefore none t) r = m none r)
    (r : Text) : substitute m f (t ++ r) = substitute m f t ++ substitute m f r := by
  rw [substitute_eq, substitute_eq, substitute_eq, pieces, piecesFrom_of_stable hm ht (Nat.zero_le _),
    piecesFrom_congr hlast, List.flatMap_append]
  rfl

/-- A part in which nothing is read is kept, and the rest is replaced as if it stood alone. -/
theorem Skips.substitute_append (h : Skips m t) (hlast : ∀ r, m (lastBefore none t) r = m none r) (r : Text) :
    substitute m f (t ++ r) = t ++ substitute m f r := by
  have hkept : (t.map (.plain : Char → Piece α)).flatMap (Piece.replaced f) = t := by
    rw [List.flatMap_map]
    exact List.flatMap_singleton' t
  rw [substitute_eq, substitute_eq, pieces, h.piecesFrom_append, piecesFrom_congr hlast, List.flatMap_append, hkept]
  rfl

theorem substitute_hit (h : m none (t ++ r) = some (a, t.length)) (ht : t ≠ [])
    (hlast : ∀ r, m (lastBefore none t) r = m none r) : substitute m f (t ++ r) = f a ++ substitute m f r := by
  rw [substitute_eq, substitute_eq, pieces, piecesFrom_hit h ht, piecesFrom_congr hlast, List.flatMap_cons]
  rfl

/-! Passes over a text that leave it as it is or make it shorter -/

def Shortens (f : Text → Text) : Prop := ∀ t, f t = t ∨ (f t).length < t.length

variable {g h : Text → Text}

theorem Shortens.length_le (hg : Shortens g) (t : Text) : (g t).length ≤ t.length := by
  rcases hg t with h | h
  · rw [h]
  · omega

theorem Shortens.length_lt (hg : Shortens g) (hne : g t ≠ t) : (g t).length < t.length :=
  (hg t).resolve_left hne

/-- As no pass can give back what another one takes away, two passes change nothing only if neither does. -/
theorem Shortens.comp_eq_self_iff (hg : Shortens g) (hh : Shortens h) :
    h (g t) = t ↔ g t = t ∧ h t = t := by
  constructor
  · intro he
    rcases hg t with hgt | hgt
    · exact ⟨hgt, by rwa [hgt] at he⟩
    · have := hh.length_le (g t)
      rw [he] at this
      omega
  · rintro ⟨hgt, hht⟩
    rw [hgt, hht]

theorem Shortens.comp (hg : Shortens g) (hh : Shortens h) : Shortens fun t => h (g t) := by
  intro t
  by_cases hgt : g t = t
  · simpa only [hgt] using hh t
  · exact .inr (Nat.lt_of_le_of_lt (hh.length_le (g t)) (hg.length_lt hgt))

theorem Shrinks.shortens (hf : Shrinks m f) : Shortens (substitute m f) := by
  intro t
  by_cases h : substitute m f t = t
  · exact .inl h
  · exact .inr (length_substitute_lt hf h)

end Runbook.Text
