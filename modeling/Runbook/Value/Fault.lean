import Runbook.Value.Show
import Runbook.Number.Numeral

/-! Why a text stands for no value, or for none that can be taken up. -/
namespace Runbook

inductive ReadFault
  /-- The text is not well formed, or names a tag or an anchor that does not exist. -/
  | malformed
  | badNumber (text : Text) (base : Nat)
  | badDecimal (text : Text)
  | badDate (reason : Text)
  | badTruth (text : Text)
  | noDigits
  | noTimestamp
  /-- A timestamp is read from the node itself, which is a mapping here. -/
  | noText
  | badCodePoint
  | tooLarge
  /-- An integer of too many digits; their number is known where a numeral is read. -/
  | tooLong (digits : Option Nat)
  /-- A value lies inside too many others, or it contains itself. -/
  | tooDeep
  deriving DecidableEq, Repr

/-- What a fault of a value says, for faults that are not about the form of the text. -/
def ReadFault.message : ReadFault → Text
  | .malformed => []
  | .badNumber t base =>
    "invalid literal for int() with base " ++ Text.ofNat base ++ ": " ++ Text.quoted t
  | .badDecimal t => "could not convert string to float: " ++ Text.quoted t
  | .badDate reason => reason
  | .badTruth t => Text.quoted t
  | .noDigits => "string index out of range"
  | .noTimestamp => "'NoneType' object has no attribute 'groupdict'"
  | .noText => "expected string or bytes-like object, got 'list'"
  | .badCodePoint => "chr() arg not in range(0x110000)"
  | .tooLarge => "int too large to convert to float"
  | .tooLong n => Numeral.excessText n
  | .tooDeep => "maximum recursion depth exceeded"

end Runbook
