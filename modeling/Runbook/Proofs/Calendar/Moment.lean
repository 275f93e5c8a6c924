import Runbook.Proofs.Calendar.Date

/-!
Moments and the instants that they denote. In the years of the calendar the clock of universal time shows every instant
exactly once, and `toUniversal?` finds the moment that it shows.
-/
namespace Runbook.Moment

open Date (first last)

variable {t u : Moment} {n : Int} {o : Option Int}

/-- Microseconds since midnight, as the clock shows them. -/
def clock (t : Moment) : Nat := ((t.hour * 60 + t.minute) * 60 + t.second) * 1000000 + t.micro

/-- Microseconds of universal time. A moment without an offset counts as one of universal time. -/
def instant (t : Moment) : Int := t.micros - t.offset.getD 0

/-- A date of the calendar and a reading of its clock, less than a day away from universal time. -/
structure IsReading (t : Moment) : Prop where
  date : t.date.IsValid
  hour : t.hour < 24
  minute : t.minute < 60
  second : t.second < 60
  micro : t.micro < 1000000
  offset : -microsPerDay < t.offset.getD 0 ∧ t.offset.getD 0 < microsPerDay

/-- A reading of the clock of universal time. -/
structure IsUniversal (t : Moment) : Prop extends IsReading t where
  universal : t.offset = some 0

theorem micros_eq (t : Moment) : t.micros = t.date.ordinal * microsPerDay + t.clock := rfl

theorem IsReading.clock_lt (h : t.IsReading) : (t.clock : Int) < microsPerDay := by
  obtain ⟨-, hhour, hminute, hsecond, hmicro, -⟩ := h
  unfold clock microsPerDay
  omega

/-- A reading is made of its day and its clock, so its microseconds say it all. -/
theorem IsReading.eq_of_micros_eq (ht : t.IsReading) (hu : u.IsReading) (h : t.micros = u.micros)
    (ho : t.offset = u.offset) : t = u := by
  have htclock := ht.clock_lt
  have huclock := hu.clock_lt
  rw [micros_eq, micros_eq] at h
  have hdate : t.date = u.date := by
    refine ht.date.eq_of_ordinal_eq hu.date ?_
    unfold microsPerDay at *
    omega
  have hclock : t.clock = u.clock := by
    rw [hdate] at h
    omega
  obtain ⟨-, -, hminute, hsecond, hmicro, -⟩ := ht
  obtain ⟨-, -, hminute', hsecond', hmicro', -⟩ := hu
  have hfields : t.hour = u.hour ∧ t.minute = u.minute ∧ t.second = u.second ∧ t.micro = u.micro := by
    unfold clock at hclock
    omega
  cases t
  cases u
  simp_all only

/-- From midnight of the first date on, and as long as there are dates, microseconds are those of a reading. -/
theorem ofMicros_spec (hlow : 1 ≤ n / microsPerDay) (hhigh : n / microsPerDay ≤ last.ordinal)
    (ho : -microsPerDay < o.getD 0 ∧ o.getD 0 < microsPerDay) :
    (ofMicros n o).IsReading ∧ (ofMicros n o).micros = n := by
  obtain ⟨hdate, hordinal⟩ := Date.ofOrdinal_spec (n := (n / microsPerDay).toNat) (by omega) (by omega)
  generalize hr : (n % microsPerDay).toNat = r
  have hclock : r < 86400000000 := by
    unfold microsPerDay at hr
    omega
  have hparts : ofMicros n o = ⟨Date.ofOrdinal (n / microsPerDay).toNat, r / 1000000 / 3600, r / 1000000 / 60 % 60,
      r / 1000000 % 60, r % 1000000, o⟩ := hr ▸ rfl
  rw [hparts]
  refine ⟨⟨hdate, ?_, Nat.mod_lt _ (by decide), Nat.mod_lt _ (by decide), Nat.mod_lt _ (by decide), ho⟩, ?_⟩
  · dsimp only
    omega
  · rw [micros_eq, clock, hordinal]
    dsimp only
    unfold microsPerDay at *
    omega

theorem IsUniversal.instant_eq (h : t.IsUniversal) : t.instant = t.micros := by
  rw [instant, h.universal]
  exact Int.sub_zero _

theorem toUniversal?_eq_some_iff : t.toUniversal? = some u ↔ u.IsUniversal ∧ u.instant = t.instant := by
  have hbounds : (0 : Int) < microsPerDay := by decide
  unfold toUniversal?
  rw [← instant]
  dsimp only
  constructor
  · intro h
    split at h
    · cases h
    · cases h
      obtain ⟨hreading, hmicros⟩ := ofMicros_spec (n := t.instant) (o := some 0) (by omega)
        (by rw [last]; omega) ⟨by decide, by decide⟩
      have huniversal : (ofMicros t.instant (some 0)).IsUniversal := ⟨hreading, rfl⟩
      exact ⟨huniversal, huniversal.instant_eq.trans hmicros⟩
  · rintro ⟨hu, hinstant⟩
    rw [hu.instant_eq] at hinstant
    have hclock := hu.clock_lt
    have hpos := hu.date.ordinal_pos
    have hle := hu.date.ordinal_le
    rw [last] at hle
    have hday : t.instant / microsPerDay = u.date.ordinal := by
      rw [← hinstant, micros_eq]
      unfold microsPerDay at *
      omega
    rw [if_neg (by omega)]
    obtain ⟨hreading, hmicros⟩ := ofMicros_spec (n := t.instant) (o := some 0) (by omega) (by rw [last]; omega)
      ⟨by decide, by decide⟩
    exact congrArg some (hreading.eq_of_micros_eq hu.toIsReading (hmicros.trans hinstant.symm) hu.universal.symm)

/-- Moments of one instant have one reading on the clock of universal time. -/
theorem toUniversal?_congr (h : t.instant = u.instant) : t.toUniversal? = u.toUniversal? := by
  refine Option.ext fun v => ?_
  rw [toUniversal?_eq_some_iff, toUniversal?_eq_some_iff, h]

/-- On the first date of the calendar its clock is not yet as far as it is ahead of universal time, or on the last one it
is so far that universal time, which is ahead of it, has a new day. -/
def IsBeyond (t : Moment) : Prop :=
  (t.date = first ∧ (t.clock : Int) < t.offset.getD 0) ∨
    (t.date = last ∧ microsPerDay ≤ (t.clock : Int) - t.offset.getD 0)

/-- Universal time is less than a day away, so only on the first date and on the last one can it leave the calendar. -/
theorem IsReading.toUniversal?_eq_none_iff (h : t.IsReading) : t.toUniversal? = none ↔ t.IsBeyond := by
  have hclock := h.clock_lt
  have hoffset := h.offset
  have hpos := h.date.ordinal_pos
  have hle := h.date.ordinal_le
  have hnone : t.toUniversal? = none ↔ t.instant / microsPerDay < 1 ∨ (last.ordinal : Int) < t.instant / microsPerDay := by
    unfold toUniversal?
    rw [← instant]
    dsimp only
    rw [ite_eq_left_iff]
    simp only [reduceCtorEq, imp_false, not_not]
    rfl
  rw [hnone, IsBeyond, ← h.date.ordinal_eq_one_iff, ← h.date.ordinal_eq_last_iff, instant, micros_eq]
  unfold microsPerDay at *
  generalize t.offset.getD 0 = lead at *
  generalize last.ordinal = l at *
  omega

end Runbook.Moment
