import Runbook.Text.Basic

/-!
Comparison with lower-case ASCII words without regard to case. Four letters outside ASCII fold to ASCII ones: the
long s, the Kelvin sign, and the two kinds of i that differ in their dot.
-/
namespace Runbook.Text

/-- The lower-case ASCII letter that a letter counts as. -/
def foldChar (c : Char) : Char :=
  if c = '\u017f' then 's'
  else if c = '\u212a' then 'k'
  else if c = '\u0130' ∨ c = '\u0131' then 'i'
  else c.toLower

/-- The rest of `t` after a word in any case. -/
def afterFolded? : (word t : Text) → Option Text
  | [], t => some t
  | _ :: _, [] => none
  | c :: p, d :: t => if c = foldChar d then afterFolded? p t else none

end Runbook.Text
