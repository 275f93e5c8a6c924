import Runbook.Text.Basic

/-! Texts as octets: UTF-8 written, read, and read with replacement of what is not UTF-8. -/
namespace Runbook.Text

def utf8Char (c : Char) : List UInt8 :=
  let n := c.toNat
  let octet (n : Nat) : UInt8 := UInt8.ofNat n
  if n < 0x80 then [octet n]
  else if n < 0x800 then [octet (0xC0 + n / 0x40), octet (0x80 + n % 0x40)]
  else if n < 0x10000 then
    [octet (0xE0 + n / 0x1000), octet (0x80 + n / 0x40 % 0x40), octet (0x80 + n % 0x40)]
  else
    [octet (0xF0 + n / 0x40000), octet (0x80 + n / 0x1000 % 0x40), octet (0x80 + n / 0x40 % 0x40),
      octet (0x80 + n % 0x40)]

def utf8 (t : Text) : List UInt8 := t.flatMap utf8Char

def isTail (b : UInt8) : Bool := 0x80 ≤ b && b ≤ 0xBF

/-- Where the octet after the first one may lie, by the first one. -/
def secondRange (a : UInt8) : Option (Nat × UInt8 × UInt8) :=
  if 0xC2 ≤ a ∧ a ≤ 0xDF then some (1, 0x80, 0xBF)
  else if a = 0xE0 then some (2, 0xA0, 0xBF)
  else if a = 0xED then some (2, 0x80, 0x9F)
  else if 0xE1 ≤ a ∧ a ≤ 0xEF then some (2, 0x80, 0xBF)
  else if a = 0xF0 then some (3, 0x90, 0xBF)
  else if a = 0xF4 then some (3, 0x80, 0x8F)
  else if 0xF1 ≤ a ∧ a ≤ 0xF3 then some (3, 0x80, 0xBF)
  else none

/-- The longest start of `bs` that a sequence with the given ranges can have. -/
def tailsOf (count : Nat) (lo hi : UInt8) (bs : List UInt8) : List UInt8 :=
  match count, bs with
  | 0, _ | _, [] => []
  | n + 1, b :: bs => if lo ≤ b ∧ b ≤ hi then b :: tailsOf n 0x80 0xBF bs else []

def charOf (a : UInt8) (tails : List UInt8) : Char :=
  let lead := match tails.length with
    | 1 => a.toNat - 0xC0
    | 2 => a.toNat - 0xE0
    | _ => a.toNat - 0xF0
  Char.ofNat (tails.foldl (fun n b => n * 0x40 + (b.toNat - 0x80)) lead)

/-- Each longest run that cannot go on to a character counts as one fault, marked by `none`. -/
def decodeMarked : List UInt8 → List (Option Char)
  | [] => []
  | a :: bs =>
    if a < 0x80 then some (Char.ofNat a.toNat) :: decodeMarked bs
    else match secondRange a with
      | none => none :: decodeMarked bs
      | some (count, lo, hi) =>
        let tails := tailsOf count lo hi bs
        let mark := if tails.length = count then some (charOf a tails) else none
        mark :: decodeMarked (bs.drop tails.length)
termination_by bs => bs.length
decreasing_by all_goals simp only [List.length_cons, List.length_drop]; omega

def ofUtf8? (bs : List UInt8) : Option Text := (decodeMarked bs).mapM id

def ofUtf8Lossy (bs : List UInt8) : Text := (decodeMarked bs).map (·.getD '\ufffd')

end Runbook.Text
