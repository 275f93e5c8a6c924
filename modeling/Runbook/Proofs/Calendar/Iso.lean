import Runbook.Proofs.Calendar.Moment
import Runbook.Calendar.Iso

/-! Whatever is written by the ISO rules is a reading: a date of the calendar, a clock and an offset of less than a day. -/
namespace Runbook.Iso

variable {t r : Text} {d : Date} {m : Moment} {n v year week day length : Nat} {o : Int}

/-! Dates -/

theorem firstMonday_pos (year : Nat) : 1 ≤ firstMonday year := by
  unfold firstMonday weekday
  dsimp only
  split <;> omega

theorem isValid_of_ofWeek? (h : ofWeek? year week day = some d) : d.IsValid := by
  unfold ofWeek? at h
  dsimp only at h
  split at h
  · split at h
    · cases h
      have hpos := firstMonday_pos year
      exact (Date.ofOrdinal_spec (by omega) (by assumption)).1
    · cases h
  · cases h

theorem isValid_of_date? (h : date? length t = some d) : d.IsValid := by
  obtain ⟨⟨year, rest⟩, -, h⟩ := Option.bind_eq_some_iff.mp h
  dsimp only at h
  generalize (if headOf rest = '-' then rest.drop 1 else rest) = rest at h
  split at h
  · obtain ⟨⟨week, rest⟩, -, h⟩ := Option.bind_eq_some_iff.mp h
    dsimp only at h
    split at h
    · obtain ⟨rest, -, h⟩ := Option.bind_eq_some_iff.mp h
      obtain ⟨⟨day, rest⟩, -, h⟩ := Option.bind_eq_some_iff.mp h
      exact isValid_of_ofWeek? h
    · exact isValid_of_ofWeek? h
  · obtain ⟨⟨month, rest⟩, -, h⟩ := Option.bind_eq_some_iff.mp h
    obtain ⟨rest, -, h⟩ := Option.bind_eq_some_iff.mp h
    obtain ⟨⟨day, rest⟩, -, h⟩ := Option.bind_eq_some_iff.mp h
    dsimp only at h
    cases hof : Date.of year month day with
    | error e =>
      rw [hof] at h
      cases h
    | ok x =>
      rw [hof] at h
      cases h
      exact (Date.of_eq_ok_iff.mp hof).2

/-! Clock readings -/

/-- As many digits write a number below that power of ten. -/
theorem foldl_digits_lt {ds : Text} (hds : ds.all Char.isDigit = true) (hv : v < 10 ^ n) :
    ds.foldl (fun v d => v * 10 + (d.toNat - '0'.toNat)) v < 10 ^ (n + ds.length) := by
  induction ds generalizing v n with
  | nil => exact hv
  | cons c ds ih =>
    rw [List.all_cons, Bool.and_eq_true] at hds
    have hdigit : c.toNat - '0'.toNat ≤ 9 := by
      have hc := hds.1
      simp only [Char.isDigit, Bool.and_eq_true, decide_eq_true_eq] at hc
      have : c.toNat ≤ 57 := hc.2
      have : '0'.toNat = 48 := rfl
      omega
    have hnext : v * 10 + (c.toNat - '0'.toNat) < 10 ^ (n + 1) := by
      rw [Nat.pow_succ]
      omega
    rw [List.foldl_cons, List.length_cons, ← Nat.add_assoc, Nat.add_right_comm]
    exact ih hds.2 hnext

theorem digits?_lt (h : digits? n t = some (v, r)) : v < 10 ^ n := by
  unfold digits? at h
  dsimp only at h
  split at h
  · rename_i hds
    cases h
    have := foldl_digits_lt (v := 0) (n := 0) hds.2 (by decide)
    rwa [hds.1, Nat.zero_add] at this
  · cases h

variable {reading : Reading} {fields : List Nat} {colons : Option Bool}

theorem fraction?_micro_lt (h : fraction? fields n t = some reading) : reading.micro < 1000000 := by
  obtain ⟨⟨micro, rest⟩, hdigits, h⟩ := Option.bind_eq_some_iff.mp h
  cases h
  have hplaces : min 6 n + (6 - min 6 n) = 6 := by omega
  calc micro * 10 ^ (6 - min 6 n) < 10 ^ min 6 n * 10 ^ (6 - min 6 n) :=
        Nat.mul_lt_mul_of_pos_right (digits?_lt hdigits) (Nat.pow_pos (by decide))
    _ = 1000000 := by rw [← Nat.pow_add, hplaces]

theorem fields?_micro_lt {left : Nat} (h : fields? left colons fields n t = some reading) : reading.micro < 1000000 := by
  induction left generalizing colons fields n t with
  | zero => exact fraction?_micro_lt h
  | succ left ih =>
    obtain ⟨⟨v, rest⟩, -, h⟩ := Option.bind_eq_some_iff.mp h
    dsimp only at h
    split at h
    · cases h
      exact Nat.zero_lt_succ _
    · split at h
      · exact ih h
      · split at h
        · exact fraction?_micro_lt h
        · split at h
          · cases h
          · exact ih h

theorem zone?_lt (h : zone? t = some o) : -Moment.microsPerDay < o ∧ o < Moment.microsPerDay := by
  unfold zone? at h
  split at h
  · split at h
    · cases h
      decide
    · cases h
  · obtain ⟨reading, -, h⟩ := Option.bind_eq_some_iff.mp h
    split at h
    · cases h
    · rename_i hday
      have hlt : (reading.micros : Int) < Moment.microsPerDay := by
        unfold microsPerDay at hday
        unfold Moment.microsPerDay
        omega
      split at h <;> cases h <;> omega

/-! Moments -/

theorem isReading_of_moment {offset : Option Int} (h : moment d reading offset = some m) (hd : d.IsValid)
    (hmicro : reading.micro < 1000000)
    (hoffset : -Moment.microsPerDay < offset.getD 0 ∧ offset.getD 0 < Moment.microsPerDay) : m.IsReading := by
  unfold moment at h
  split at h
  · rename_i hclock
    cases h
    exact ⟨hd, hclock.1, hclock.2.1, hclock.2.2, hmicro, hoffset⟩
  · cases h

theorem isReading_of_timed? (h : timed? d t = some m) (hd : d.IsValid) : m.IsReading := by
  obtain ⟨reading, hclock, h⟩ := Option.bind_eq_some_iff.mp h
  have hmicro := fields?_micro_lt hclock
  split at h
  · split at h
    · cases h
    · exact isReading_of_moment h hd hmicro (by decide)
  · obtain ⟨o, hzone, h⟩ := Option.bind_eq_some_iff.mp h
    exact isReading_of_moment h hd hmicro (zone?_lt hzone)

theorem isReading_of_moment? (h : moment? t = some m) : m.IsReading := by
  unfold moment? at h
  dsimp only at h
  split at h
  · cases h
  · obtain ⟨length, -, h⟩ := Option.bind_eq_some_iff.mp h
    obtain ⟨d, hdate, h⟩ := Option.bind_eq_some_iff.mp h
    have hd := isValid_of_date? hdate
    split at h
    · exact isReading_of_timed? h hd
    · cases h
      have hoffset : -Moment.microsPerDay < 0 ∧ 0 < Moment.microsPerDay := by decide
      exact ⟨hd, Nat.zero_lt_succ _, Nat.zero_lt_succ _, Nat.zero_lt_succ _, Nat.zero_lt_succ _, hoffset⟩

end Runbook.Iso
