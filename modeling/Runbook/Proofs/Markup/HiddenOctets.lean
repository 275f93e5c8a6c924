import Mathlib.Tactic.Ring
import Runbook.Proofs.Text.Lines
import Runbook.Proofs.Text.Search
import Runbook.Markup.ZeroWidth

/-!
What is read from characters without width is what was written there: eight bits for each octet and a separator between
two. Frame marks may be added at both ends, and padding anywhere.
-/
namespace Runbook.ZeroWidth

open Text (join splitAt trim)

variable {c : Char} {n k acc : Nat} {bits : List Nat} {b : UInt8} {bs : List UInt8} {run group s inside : Text}

/-! Binary numerals of a fixed length -/

def digits (k n : Nat) : List Nat := (List.range k).map fun i => n / 2 ^ (k - 1 - i) % 2

def push (n b : Nat) : Nat := 2 * n + b

theorem digits_succ (k n : Nat) : digits (k + 1) n = n / 2 ^ k % 2 :: digits k n := by
  rw [digits, List.range_succ_eq_map, List.map_cons, List.map_map]
  congr 1
  refine List.map_congr_left fun i _ => ?_
  rw [Function.comp_apply, show k + 1 - 1 - i.succ = k - 1 - i by omega]

theorem length_digits (k n : Nat) : (digits k n).length = k := by simp [digits]

theorem lt_of_mem_digits {d : Nat} (h : d ∈ digits k n) : d < 2 := by
  obtain ⟨i, -, rfl⟩ := List.mem_map.mp h
  exact Nat.mod_lt _ (by decide)

theorem foldl_push_digits (k n acc : Nat) : (digits k n).foldl push acc = acc * 2 ^ k + n % 2 ^ k := by
  induction k generalizing acc with
  | zero => simp [digits, Nat.mod_one]
  | succ k ih =>
    rw [digits_succ, List.foldl_cons, ih, push, Nat.mod_pow_succ]
    ring

/-- What is read before some bits stands above them in the number. -/
theorem exists_foldl_push (h : ∀ d ∈ bits, d < 2) (acc : Nat) :
    ∃ v, v < 2 ^ bits.length ∧ bits.foldl push acc = acc * 2 ^ bits.length + v := by
  induction bits generalizing acc with
  | nil => exact ⟨0, by simp, by simp⟩
  | cons d bits ih =>
    obtain ⟨hd, hbits⟩ := List.forall_mem_cons.mp h
    obtain ⟨v, hv, he⟩ := ih hbits (push acc d)
    have hpow : 2 ^ (d :: bits).length = 2 * 2 ^ bits.length := by rw [List.length_cons, Nat.pow_succ']
    refine ⟨d * 2 ^ bits.length + v, ?_, ?_⟩
    · have hle : d * 2 ^ bits.length ≤ 1 * 2 ^ bits.length := Nat.mul_le_mul_right _ (by omega)
      omega
    · rw [List.foldl_cons, he, hpow, push]
      ring

theorem digits_foldl_push (h : ∀ d ∈ bits, d < 2) (acc : Nat) :
    digits bits.length (bits.foldl push acc) = bits := by
  induction bits generalizing acc with
  | nil => rfl
  | cons d bits ih =>
    obtain ⟨hd, hbits⟩ := List.forall_mem_cons.mp h
    obtain ⟨v, hv, he⟩ := exists_foldl_push hbits (push acc d)
    have hpos : 0 < 2 ^ bits.length := Nat.pow_pos (by decide)
    have htop : bits.foldl push (push acc d) / 2 ^ bits.length % 2 = d := by
      rw [he, Nat.mul_comm, Nat.mul_add_div hpos, Nat.div_eq_of_lt hv, push]
      omega
    rw [List.length_cons, digits_succ, List.foldl_cons, htop, ih hbits]

/-! Octets and their bits -/

def bitChar (d : Nat) : Char := if d = 1 then oneBit else zeroBit

theorem octetBits_eq (b : UInt8) : octetBits b = (digits 8 b.toNat).map bitChar := by
  rw [octetBits, digits, List.map_map]
  rfl

theorem bit?_eq_some_iff {d : Nat} : bit? c = some d ↔ c = bitChar d ∧ d < 2 := by
  unfold bit?
  constructor
  · intro h
    split at h
    · cases h
      exact ⟨‹_›, by decide⟩
    · split at h
      · cases h
        exact ⟨‹_›, by decide⟩
      · cases h
  · rintro ⟨rfl, hd⟩
    obtain rfl | rfl : d = 0 ∨ d = 1 := by omega
    · rfl
    · rfl

/-- Where each member is read on its own, and in one way only, the list is what writing its readings gives. -/
theorem mapM_eq_some_iff {α β : Type} {f : α → Option β} {g : β → α} {P : β → Prop}
    (hf : ∀ a b, f a = some b ↔ a = g b ∧ P b) {as : List α} {rs : List β} :
    as.mapM f = some rs ↔ as = rs.map g ∧ ∀ b ∈ rs, P b := by
  induction as generalizing rs with
  | nil =>
    rw [List.mapM_nil, show (pure [] : Option (List β)) = some [] from rfl, Option.some_inj]
    constructor
    · rintro rfl
      simp
    · rintro ⟨h, -⟩
      exact (List.map_eq_nil_iff.mp h.symm).symm
  | cons a as ih =>
    rw [List.mapM_cons]
    constructor
    · intro h
      obtain ⟨b, hb, h⟩ := Option.bind_eq_some_iff.mp h
      obtain ⟨rs, hrs, h⟩ := Option.bind_eq_some_iff.mp h
      cases h
      obtain ⟨rfl, hP⟩ := (hf a b).mp hb
      obtain ⟨rfl, hPs⟩ := ih.mp hrs
      exact ⟨rfl, List.forall_mem_cons.mpr ⟨hP, hPs⟩⟩
    · rintro ⟨h, hP⟩
      cases rs with
      | nil => cases h
      | cons b rs =>
        obtain ⟨rfl, rfl⟩ := List.cons.inj h
        obtain ⟨hb, hrs⟩ := List.forall_mem_cons.mp hP
        rw [(hf _ b).mpr ⟨rfl, hb⟩, ih.mpr ⟨rfl, hrs⟩]
        rfl

theorem octet?_eq_some_iff : octet? group = some b ↔ group = octetBits b := by
  rw [octetBits_eq]
  constructor
  · intro h
    unfold octet? at h
    split at h
    · rename_i hlen
      obtain ⟨bits, hbits, rfl⟩ := Option.map_eq_some_iff.mp h
      obtain ⟨rfl, hlt⟩ := (mapM_eq_some_iff fun _ _ => bit?_eq_some_iff).mp hbits
      rw [List.length_map] at hlen
      obtain ⟨v, hv, hval⟩ := exists_foldl_push hlt 0
      have hround := digits_foldl_push hlt 0
      rw [hlen] at hround hv
      have hsmall : bits.foldl push 0 < 2 ^ 8 := by omega
      rw [show (UInt8.ofNat (bits.foldl (fun n b => 2 * n + b) 0)).toNat = bits.foldl push 0 from
        Nat.mod_eq_of_lt hsmall, hround]
    · cases h
  · rintro rfl
    have hbits : ((digits 8 b.toNat).map bitChar).mapM bit? = some (digits 8 b.toNat) :=
      (mapM_eq_some_iff fun _ _ => bit?_eq_some_iff).mpr ⟨rfl, fun _ => lt_of_mem_digits⟩
    have hval : (digits 8 b.toNat).foldl push 0 = b.toNat := by
      rw [foldl_push_digits, Nat.zero_mul, Nat.zero_add]
      exact Nat.mod_eq_of_lt b.toNat_lt
    rw [octet?, if_pos (by rw [List.length_map, length_digits]), hbits, Option.map_some]
    exact congrArg some ((congrArg UInt8.ofNat hval).trans UInt8.ofNat_toNat)

theorem mem_octetBits (h : c ∈ octetBits b) : c = zeroBit ∨ c = oneBit := by
  rw [octetBits_eq] at h
  obtain ⟨d, -, rfl⟩ := List.mem_map.mp h
  unfold bitChar
  split
  · exact .inr rfl
  · exact .inl rfl

theorem octetBits_ne_nil (b : UInt8) : octetBits b ≠ [] := by simp [octetBits]

/-! The body of a run -/

theorem body_cons (b : UInt8) (bs : List UInt8) (h : bs ≠ []) :
    body (b :: bs) = octetBits b ++ separator :: body bs := by
  rw [body, List.map_cons, Text.join_cons (by simpa using h), List.append_assoc]
  rfl

/-- Neither a frame mark nor padding stands in a body. -/
theorem mem_body (h : c ∈ body bs) : c = zeroBit ∨ c = oneBit ∨ c = separator := by
  induction bs with
  | nil => cases h
  | cons b bs ih =>
    by_cases hbs : bs = []
    · subst hbs
      exact (mem_octetBits h).imp_right .inl
    · rw [body_cons b bs hbs, List.mem_append, List.mem_cons] at h
      rcases h with h | rfl | h
      · exact (mem_octetBits h).imp_right .inl
      · exact .inr (.inr rfl)
      · exact ih h

theorem frame_not_mem_body (bs : List UInt8) : frame ∉ body bs := by
  intro h
  rcases mem_body h with h | h | h <;> exact absurd h (by decide)

theorem padding_not_mem_body (bs : List UInt8) : padding ∉ body bs := by
  intro h
  rcases mem_body h with h | h | h <;> exact absurd h (by decide)

theorem body_eq_nil_iff : body bs = [] ↔ bs = [] := by
  cases bs with
  | nil => exact iff_of_true rfl rfl
  | cons b bs =>
    refine iff_of_false (fun h => ?_) (by simp)
    by_cases hbs : bs = []
    · subst hbs
      exact octetBits_ne_nil b h
    · rw [body_cons b bs hbs] at h
      simp at h

theorem splitAt_body (h : bs ≠ []) : splitAt separator (body bs) = bs.map octetBits := by
  refine Text.splitAt_join (by simpa using h) fun x hx hc => ?_
  obtain ⟨b, -, rfl⟩ := List.mem_map.mp hx
  rcases mem_octetBits hc with h | h <;> exact absurd h (by decide)

/-- What is read between two separators is an octet, so what is read as a whole is a body. -/
theorem octets_eq_some_iff : (splitAt separator inside).mapM octet? = some bs ↔ bs ≠ [] ∧ inside = body bs := by
  rw [mapM_eq_some_iff (P := fun _ => True) fun _ _ => by rw [octet?_eq_some_iff, and_true]]
  constructor
  · rintro ⟨h, -⟩
    refine ⟨fun he => ?_, ?_⟩
    · rw [he] at h
      exact Text.splitAt_ne_nil _ _ h
    · rw [← Text.join_splitAt separator inside, h]
      rfl
  · rintro ⟨hne, rfl⟩
    exact ⟨splitAt_body hne, fun _ _ => trivial⟩

theorem decode_eq (run : Text) : decode run =
    if trim (· = frame) (run.filter (· ≠ padding)) = [] ∨ frame ∈ trim (· = frame) (run.filter (· ≠ padding)) then none
    else (splitAt separator (trim (· = frame) (run.filter (· ≠ padding)))).mapM octet? := by
  unfold decode
  simp only [List.isEmpty_iff]

/-- A run that holds octets: padding apart, it is their body between two rows of frame marks, which may be empty. -/
def Holds (run : Text) (bs : List UInt8) : Prop :=
  bs ≠ [] ∧ ∃ i j, run.filter (· ≠ padding) = List.replicate i frame ++ (body bs ++ List.replicate j frame)

theorem trim_framed (h : frame ∉ inside) (i j : Nat) :
    trim (· = frame) (List.replicate i frame ++ (inside ++ List.replicate j frame)) = inside := by
  have hrow : ∀ k, ∀ c ∈ List.replicate k frame, decide (c = frame) = true := by
    intro k c hc
    rw [List.eq_of_mem_replicate hc]
    rfl
  have hin : ∀ c ∈ inside, decide (c = frame) = false := by
    intro c hc
    rw [decide_eq_false_iff_not]
    rintro rfl
    exact h hc
  exact Text.trim_run (hrow i) (hrow j) (fun c hc => hin c (List.mem_of_mem_head? hc))
    fun c hc => hin c (List.mem_of_mem_getLast? hc)

theorem exists_framed (s : Text) :
    ∃ i j, s = List.replicate i frame ++ (trim (· = frame) s ++ List.replicate j frame) := by
  obtain ⟨b, e, hs, hb, he⟩ := Text.exists_trim (· = frame) s
  have hrow : ∀ r : Text, (∀ c ∈ r, decide (c = frame) = true) → r = List.replicate r.length frame :=
    fun r hr => List.eq_replicate_iff.mpr ⟨rfl, by simpa using hr⟩
  exact ⟨b.length, e.length, by rw [← hrow b hb, ← hrow e he]; exact hs⟩

theorem decode_eq_some_iff : decode run = some bs ↔ Holds run bs := by
  rw [decode_eq, Holds]
  generalize run.filter (· ≠ padding) = s
  constructor
  · intro h
    split at h
    · cases h
    · obtain ⟨hne, hbody⟩ := octets_eq_some_iff.mp h
      obtain ⟨i, j, hs⟩ := exists_framed s
      exact ⟨hne, i, j, hbody ▸ hs⟩
  · rintro ⟨hne, i, j, rfl⟩
    rw [trim_framed (frame_not_mem_body bs), if_neg]
    · exact octets_eq_some_iff.mpr ⟨hne, rfl⟩
    · rintro (h | h)
      · exact hne (body_eq_nil_iff.mp h)
      · exact frame_not_mem_body bs h

theorem holds_encode (h : bs ≠ []) : Holds (encode bs) bs := by
  refine ⟨h, 1, 1, ?_⟩
  have hbody : (body bs).filter (· ≠ padding) = body bs := by
    refine List.filter_eq_self.mpr fun c hc => ?_
    rw [decide_eq_true_eq]
    rintro rfl
    exact padding_not_mem_body bs hc
  rw [encode, List.cons_append, List.filter_cons, if_pos (by decide), List.filter_append, hbody]
  rfl

/-- Octets are read from the runs that hold them and from no other, whatever the run is. -/
theorem decode_accepts_exactly :
    (∀ run bs, decode run = some bs ↔ Holds run bs) ∧ (∀ bs, bs ≠ [] → decode (encode bs) = some bs) ∧
      ∀ run, (∀ bs, ¬ Holds run bs) → decode run = none := by
  refine ⟨fun _ _ => decode_eq_some_iff, fun bs h => decode_eq_some_iff.mpr (holds_encode h), fun run h => ?_⟩
  cases hd : decode run with
  | none => rfl
  | some bs => exact (h bs (decode_eq_some_iff.mp hd)).elim

end Runbook.ZeroWidth
