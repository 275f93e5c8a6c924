import Runbook.Proofs.Calendar.Iso
import Runbook.Proofs.Text.Digit
import Runbook.Report.Display

/-!
How a report shows moments. What is shown depends on the instant alone, to the second, and every instant has a stamp for
as long as the clock of universal time has a date for it.
-/
namespace Runbook.Display

open Text (ofNat)
open Moment (two)

variable {t u m : Moment} {s : Text} {n : Nat} {c : Char}

def stampText (u : Moment) : Text :=
  ofNat u.date.year ++ "-" ++ two u.date.month ++ "-" ++ two u.date.day ++ " " ++ two u.hour ++ ":" ++ two u.minute ++
    ":" ++ two u.second ++ " UTC"

theorem stamp?_eq (t : Moment) : stamp? t = t.toUniversal?.map stampText := rfl

theorem time?_of_moment? (h : Iso.moment? s = some m) : time? (some s) = stamp? m := by
  rw [time?, h]

/-! Stamps are read back -/

theorem not_mem_two (hc : c.isAlphanum = false) (n : Nat) : c ∉ two n := by
  rw [two, Text.padLeft, List.mem_append]
  rintro (hzero | hdigit)
  · rw [List.eq_of_mem_replicate hzero] at hc
    cases hc
  · exact Text.not_mem_ofNat hc n hdigit

theorem two_cut {k : Nat} {r r' : Text} (hc : c.isAlphanum = false) (h : two n ++ c :: r = two k ++ c :: r') :
    n = k ∧ r = r' := by
  obtain ⟨hn, hr⟩ := Text.first_inj (not_mem_two hc n) (not_mem_two hc k) h
  exact ⟨Text.padLeft_ofNat_injective 2 hn, hr⟩

theorem ofNat_cut {k : Nat} {r r' : Text} (hc : c.isAlphanum = false) (h : ofNat n ++ c :: r = ofNat k ++ c :: r') :
    n = k ∧ r = r' := by
  obtain ⟨hn, hr⟩ := Text.first_inj (Text.not_mem_ofNat hc n) (Text.not_mem_ofNat hc k) h
  exact ⟨Text.ofNat_injective hn, hr⟩

theorem stampText_eq (u : Moment) : stampText u = ofNat u.date.year ++ '-' :: (two u.date.month ++ '-' ::
    (two u.date.day ++ ' ' :: (two u.hour ++ ':' :: (two u.minute ++ ':' :: (two u.second ++ ' ' :: "UTC".toList))))) := by
  simp [stampText]

/-- Stamps tell dates and seconds apart, and nothing else. -/
theorem stampText_eq_iff : stampText t = stampText u ↔
    t.date = u.date ∧ t.hour = u.hour ∧ t.minute = u.minute ∧ t.second = u.second := by
  constructor
  · intro h
    rw [stampText_eq, stampText_eq] at h
    obtain ⟨hyear, h⟩ := ofNat_cut (by decide) h
    obtain ⟨hmonth, h⟩ := two_cut (by decide) h
    obtain ⟨hday, h⟩ := two_cut (by decide) h
    obtain ⟨hhour, h⟩ := two_cut (by decide) h
    obtain ⟨hminute, h⟩ := two_cut (by decide) h
    obtain ⟨hsecond, -⟩ := two_cut (by decide) h
    refine ⟨?_, hhour, hminute, hsecond⟩
    cases hd : t.date
    cases he : u.date
    simp_all
  · rintro ⟨hdate, hhour, hminute, hsecond⟩
    rw [stampText, stampText, hdate, hhour, hminute, hsecond]

/-- The second that an instant is in. -/
theorem instant_div (h : t.IsUniversal) :
    t.instant / 1000000 = (t.date.ordinal * 86400 + ((t.hour * 60 + t.minute) * 60 + t.second) : Nat) := by
  have hmicro := h.micro
  rw [h.instant_eq, Moment.micros_eq, Moment.clock]
  unfold Moment.microsPerDay
  omega

theorem stampText_eq_iff_instant (ht : t.IsUniversal) (hu : u.IsUniversal) :
    stampText t = stampText u ↔ t.instant / 1000000 = u.instant / 1000000 := by
  rw [stampText_eq_iff, instant_div ht, instant_div hu, Int.natCast_inj]
  obtain ⟨⟨hdate, hhour, hminute, hsecond, -, -⟩, -⟩ := ht
  obtain ⟨⟨hdate', hhour', hminute', hsecond', -, -⟩, -⟩ := hu
  constructor
  · rintro ⟨hd, hh, hm, hs⟩
    rw [hd, hh, hm, hs]
  · intro h
    refine ⟨hdate.eq_of_ordinal_eq hdate' ?_, ?_⟩ <;> omega

/-! Shown texts -/

theorem exists_stamp (ht : t.IsReading) (h : ¬ t.IsBeyond) :
    ∃ u : Moment, u.IsUniversal ∧ u.instant = t.instant ∧ stamp? t = some (stampText u) := by
  cases hu : t.toUniversal? with
  | none => exact (h (ht.toUniversal?_eq_none_iff.mp hu)).elim
  | some u =>
    obtain ⟨huniversal, hinstant⟩ := Moment.toUniversal?_eq_some_iff.mp hu
    exact ⟨u, huniversal, hinstant, by rw [stamp?_eq, hu]; rfl⟩

/-- A text that writes no moment is shown as it is. Any other is shown by the stamp of its instant, which no other second
has, unless that instant is outside the years of the calendar; then nothing can be shown. -/
theorem shows_instants (s : Text) :
    (Iso.moment? s = none → time? (some s) = some s) ∧
    ∀ m, Iso.moment? s = some m → m.IsReading ∧
      (time? (some s) = none ↔ m.IsBeyond) ∧
      (¬ m.IsBeyond → ∃ u : Moment, u.IsUniversal ∧ u.instant = m.instant ∧ time? (some s) = some (stampText u)) ∧
      ∀ s' m', Iso.moment? s' = some m' →
        (m'.instant = m.instant → time? (some s') = time? (some s)) ∧
        (¬ m.IsBeyond → ¬ m'.IsBeyond →
          (time? (some s') = time? (some s) ↔ m'.instant / 1000000 = m.instant / 1000000)) := by
  refine ⟨fun h => by rw [time?, h], fun m hm => ?_⟩
  have hreading := Iso.isReading_of_moment? hm
  refine ⟨hreading, ?_, ?_, fun s' m' hm' => ⟨fun h => ?_, fun hin hin' => ?_⟩⟩
  · rw [time?_of_moment? hm, stamp?_eq, Option.map_eq_none_iff]
    exact hreading.toUniversal?_eq_none_iff
  · intro hin
    rw [time?_of_moment? hm]
    exact exists_stamp hreading hin
  · rw [time?_of_moment? hm, time?_of_moment? hm', stamp?_eq, stamp?_eq, Moment.toUniversal?_congr h]
  · obtain ⟨u, hu, hinstant, hstamp⟩ := exists_stamp hreading hin
    obtain ⟨u', hu', hinstant', hstamp'⟩ := exists_stamp (Iso.isReading_of_moment? hm') hin'
    rw [time?_of_moment? hm, time?_of_moment? hm', hstamp, hstamp', Option.some_inj, stampText_eq_iff_instant hu' hu,
      hinstant, hinstant']

/-- An hour ahead of universal time the calendar starts an hour too early. -/
def firstMidnight : Text := "0001-01-01T00:00:00+01:00"

theorem time?_firstMidnight :
    Iso.moment? firstMidnight = some ⟨Date.first, 0, 0, 0, 0, some 3600000000⟩ ∧ time? (some firstMidnight) = none := by
  decide +kernel

end Runbook.Display
