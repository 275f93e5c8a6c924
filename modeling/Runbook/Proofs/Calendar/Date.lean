import Mathlib.Order.Monotone.Basic
import Runbook.Calendar.Basic

/-!
Dates and their numbers. The days before a year, and those before a month of it, cut the numbers into stretches, so
every number from that of the first date to that of the last one is the number of exactly one date.
-/
namespace Runbook.Date

variable {d e : Date} {y m n k : Nat}

/-- A date that is in the calendar. -/
structure IsValid (d : Date) : Prop where
  year : 1 ≤ d.year ∧ d.year ≤ 9999
  month : 1 ≤ d.month ∧ d.month ≤ 12
  day : 1 ≤ d.day ∧ d.day ≤ daysInMonth d.year d.month

def first : Date := ⟨1, 1, 1⟩

def last : Date := ⟨9999, 12, 31⟩

theorem of_eq_ok_iff {x : Nat} : of y m x = .ok d ↔ d = ⟨y, m, x⟩ ∧ d.IsValid := by
  unfold of
  constructor
  · intro h
    split at h
    · cases h
    · split at h
      · cases h
      · split at h
        · cases h
        · cases h
          refine ⟨rfl, ⟨?_, ?_⟩, ⟨?_, ?_⟩, ?_, ?_⟩ <;> dsimp only <;> omega
  · rintro ⟨rfl, ⟨hy, hy'⟩, ⟨hm, hm'⟩, ⟨hd, hd'⟩⟩
    dsimp only at *
    rw [if_neg (by omega), if_neg (by omega), if_neg (by omega)]

/-! Years and months -/

def daysInYear (y : Nat) : Nat := if isLeap y then 366 else 365

/-- Each of the three divisions goes up by one where its divisor divides the year. -/
theorem succ_div_eq (n k : Nat) (hk : k = 4 ∨ k = 100 ∨ k = 400) :
    (n + 1) / k = n / k + if (n + 1) % k = 0 then 1 else 0 := by
  rcases hk with rfl | rfl | rfl <;> split <;> omega

theorem daysBeforeYear_succ (hy : 1 ≤ y) : daysBeforeYear (y + 1) = daysBeforeYear y + daysInYear y := by
  obtain ⟨k, rfl⟩ : ∃ k, y = k + 1 := ⟨y - 1, by omega⟩
  have hle : k / 100 ≤ k / 4 := Nat.div_le_div_left (by decide) (by decide)
  unfold daysBeforeYear daysInYear isLeap
  rw [Nat.add_sub_cancel, Nat.add_sub_cancel, succ_div_eq k 4 (by simp), succ_div_eq k 100 (by simp),
    succ_div_eq k 400 (by simp)]
  generalize k / 4 = a at *
  generalize k / 100 = b at *
  by_cases h4 : (k + 1) % 4 = 0
  · by_cases h100 : (k + 1) % 100 = 0
    · by_cases h400 : (k + 1) % 400 = 0 <;> simp [h4, h100, h400] <;> omega
    · have h400 : (k + 1) % 400 ≠ 0 := by omega
      simp [h4, h100, h400]
      omega
  · have h100 : (k + 1) % 100 ≠ 0 := by omega
    have h400 : (k + 1) % 400 ≠ 0 := by omega
    simp [h4, h100, h400]
    omega

theorem daysBeforeMonth_succ (y : Nat) (hm : 1 ≤ m) :
    daysBeforeMonth y (m + 1) = daysBeforeMonth y m + daysInMonth y m := by
  obtain ⟨k, rfl⟩ : ∃ k, m = k + 1 := ⟨m - 1, by omega⟩
  have hsum (ns : List Nat) (n : Nat) : ns.foldr (· + ·) n = ns.foldr (· + ·) 0 + n := by
    induction ns with
    | nil => simp
    | cons a ns ih => rw [List.foldr_cons, List.foldr_cons, ih, Nat.add_assoc]
  rw [daysBeforeMonth, daysBeforeMonth, Nat.add_sub_cancel, Nat.add_sub_cancel, List.range_succ, List.map_append,
    List.foldr_append, hsum]
  rfl

theorem daysBeforeMonth_thirteen (y : Nat) : daysBeforeMonth y 13 = daysInYear y := by
  unfold daysInYear
  cases h : isLeap y <;> simp [daysBeforeMonth, daysInMonth, h, List.range, List.range.loop]

theorem monotone_daysBeforeYear : Monotone daysBeforeYear := by
  refine monotone_nat_of_le_succ fun y => ?_
  cases y with
  | zero => exact Nat.zero_le _
  | succ y =>
    rw [daysBeforeYear_succ (y := y + 1) (by omega)]
    exact Nat.le_add_right _ _

theorem monotone_daysBeforeMonth (y : Nat) : Monotone (daysBeforeMonth y) := by
  refine monotone_nat_of_le_succ fun m => ?_
  cases m with
  | zero => exact Nat.zero_le _
  | succ m =>
    rw [daysBeforeMonth_succ y (m := m + 1) (by omega)]
    exact Nat.le_add_right _ _

/-- A number stands in only one stretch of a monotone sequence of borders. -/
theorem stretch_unique {f : Nat → Nat} (hf : Monotone f) {a b : Nat} (ha : f a < n ∧ n ≤ f (a + 1))
    (hb : f b < n ∧ n ≤ f (b + 1)) : a = b := by
  rcases Nat.lt_trichotomy a b with h | h | h
  · have : f (a + 1) ≤ f b := hf (by omega)
    omega
  · exact h
  · have : f (b + 1) ≤ f a := hf (by omega)
    omega

/-! From a date to its number -/

def dayOfYear (d : Date) : Nat := daysBeforeMonth d.year d.month + d.day

theorem ordinal_eq (d : Date) : d.ordinal = daysBeforeYear d.year + d.dayOfYear := Nat.add_assoc ..

theorem IsValid.dayOfYear_stretch (h : d.IsValid) :
    daysBeforeMonth d.year d.month < d.dayOfYear ∧ d.dayOfYear ≤ daysBeforeMonth d.year (d.month + 1) := by
  obtain ⟨-, hm, hd⟩ := h
  rw [daysBeforeMonth_succ d.year hm.1, dayOfYear]
  omega

theorem IsValid.ordinal_stretch (h : d.IsValid) :
    daysBeforeYear d.year < d.ordinal ∧ d.ordinal ≤ daysBeforeYear (d.year + 1) := by
  have hmonth := h.dayOfYear_stretch
  have hyear : daysBeforeMonth d.year (d.month + 1) ≤ daysInYear d.year := by
    rw [← daysBeforeMonth_thirteen]
    exact monotone_daysBeforeMonth d.year (by have := h.month; omega)
  rw [daysBeforeYear_succ h.year.1, ordinal_eq]
  omega

/-- No two dates of the calendar have one number. -/
theorem IsValid.eq_of_ordinal_eq (hd : d.IsValid) (he : e.IsValid) (h : d.ordinal = e.ordinal) : d = e := by
  have hyear : d.year = e.year := by
    have hestretch := he.ordinal_stretch
    rw [← h] at hestretch
    exact stretch_unique monotone_daysBeforeYear hd.ordinal_stretch hestretch
  have hday : d.dayOfYear = e.dayOfYear := by
    rw [ordinal_eq, ordinal_eq, hyear] at h
    omega
  have hmonth : d.month = e.month := by
    have hdm := hd.dayOfYear_stretch
    have hem := he.dayOfYear_stretch
    rw [hyear, hday] at hdm
    exact stretch_unique (monotone_daysBeforeMonth e.year) hdm hem
  have hday : d.day = e.day := by
    rw [dayOfYear, dayOfYear, hyear, hmonth] at hday
    omega
  cases d
  cases e
  simp_all

theorem IsValid.ordinal_pos (h : d.IsValid) : 1 ≤ d.ordinal := Nat.lt_of_le_of_lt (Nat.zero_le _) h.ordinal_stretch.1

theorem IsValid.ordinal_le (h : d.IsValid) : d.ordinal ≤ last.ordinal := by
  have hyear : daysBeforeYear (d.year + 1) ≤ daysBeforeYear 10000 :=
    monotone_daysBeforeYear (by have := h.year; omega)
  exact Nat.le_trans h.ordinal_stretch.2 hyear

theorem isValid_first : first.IsValid := ⟨by decide, by decide, by decide⟩

theorem isValid_last : last.IsValid := ⟨by decide, by decide, by decide⟩

theorem IsValid.ordinal_eq_one_iff (h : d.IsValid) : d.ordinal = 1 ↔ d = first :=
  ⟨fun he => h.eq_of_ordinal_eq isValid_first he, fun he => he ▸ rfl⟩

theorem IsValid.ordinal_eq_last_iff (h : d.IsValid) : d.ordinal = last.ordinal ↔ d = last :=
  ⟨fun he => h.eq_of_ordinal_eq isValid_last he, fun he => he ▸ rfl⟩

/-! From a number to its date -/

/-- The months are tried in order. What is left of the number is a day of the month that is found. -/
theorem monthOf_stretch {fuel x : Nat} (hm : 1 ≤ m) (hn : 1 ≤ n)
    (hle : daysBeforeMonth y m + n ≤ daysBeforeMonth y (m + fuel + 1)) (h : monthOf y n fuel m = (k, x)) :
    m ≤ k ∧ k ≤ m + fuel ∧ 1 ≤ x ∧ x ≤ daysInMonth y k ∧ daysBeforeMonth y k + x = daysBeforeMonth y m + n := by
  have hnext := daysBeforeMonth_succ y hm
  induction fuel generalizing m n with
  | zero =>
    cases h
    rw [Nat.add_zero, hnext] at hle
    omega
  | succ fuel ih =>
    rw [monthOf] at h
    split at h
    · cases h
      omega
    · have hle : daysBeforeMonth y (m + 1) + (n - daysInMonth y m) ≤ daysBeforeMonth y (m + 1 + fuel + 1) := by
        rw [show m + 1 + fuel + 1 = m + (fuel + 1) + 1 by omega]
        omega
      have := ih (by omega) (by omega) hle h (daysBeforeMonth_succ y (by omega))
      omega

/-- A year has 146097 / 400 days on average, and the days before a year are never two off that. -/
theorem daysBeforeYear_bounds (k : Nat) :
    146097 * k ≤ 400 * daysBeforeYear (k + 1) + 699 ∧ 400 * daysBeforeYear (k + 1) ≤ 146097 * k + 396 := by
  unfold daysBeforeYear
  rw [Nat.add_sub_cancel]
  omega

/-- The guess misses the year by one at most, and the days before the years next to it tell which way. -/
theorem ofOrdinal_stretch (hn : 1 ≤ n) : 1 ≤ (ofOrdinal n).year ∧
    daysBeforeYear (ofOrdinal n).year < n ∧ n ≤ daysBeforeYear ((ofOrdinal n).year + 1) := by
  generalize hk : (n - 1) * 400 / 146097 = k
  have hyear : (ofOrdinal n).year = if daysBeforeYear (k + 1 + 1) < n then k + 1 + 1
      else if n ≤ daysBeforeYear (k + 1) then k + 1 - 1 else k + 1 := hk ▸ rfl
  have hlow : daysBeforeYear k < n := by
    cases k with
    | zero => exact hn
    | succ k =>
      have := (daysBeforeYear_bounds k).2
      omega
  have hhigh : n ≤ daysBeforeYear (k + 2 + 1) := by
    have := (daysBeforeYear_bounds (k + 2)).1
    omega
  rw [hyear]
  split
  · exact ⟨by omega, by assumption, hhigh⟩
  · split
    · have hzero : k ≠ 0 := by
        rintro rfl
        have : daysBeforeYear (0 + 1) = 0 := rfl
        omega
      rw [Nat.add_sub_cancel]
      exact ⟨by omega, hlow, by assumption⟩
    · omega

theorem ofOrdinal_spec (hn : 1 ≤ n) (hlast : n ≤ last.ordinal) :
    (ofOrdinal n).IsValid ∧ (ofOrdinal n).ordinal = n := by
  obtain ⟨hpos, hlow, hhigh⟩ := ofOrdinal_stretch hn
  have hyear : (ofOrdinal n).year ≤ 9999 := by
    by_contra hlate
    have hend : last.ordinal = daysBeforeYear 10000 := rfl
    have : daysBeforeYear 10000 ≤ daysBeforeYear (ofOrdinal n).year := monotone_daysBeforeYear (by omega)
    omega
  have hzero : daysBeforeMonth (ofOrdinal n).year 1 = 0 := rfl
  have hle : daysBeforeMonth (ofOrdinal n).year 1 + (n - daysBeforeYear (ofOrdinal n).year) ≤
      daysBeforeMonth (ofOrdinal n).year 13 := by
    rw [daysBeforeYear_succ hpos] at hhigh
    rw [hzero, daysBeforeMonth_thirteen]
    omega
  have hparts : monthOf (ofOrdinal n).year (n - daysBeforeYear (ofOrdinal n).year) 11 1 =
      ((ofOrdinal n).month, (ofOrdinal n).day) := rfl
  obtain ⟨hm, hm', hd, hd', hsum⟩ := monthOf_stretch (by decide) (by omega) hle hparts
  refine ⟨⟨⟨hpos, hyear⟩, ⟨hm, hm'⟩, hd, hd'⟩, ?_⟩
  rw [ordinal_eq, dayOfYear, hsum, hzero]
  omega

end Runbook.Date
