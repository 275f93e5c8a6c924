import Runbook.Text.Pieces
import Runbook.Text.Utf8
import Runbook.Value.Basic

/-!
Octets in characters without width: two of them are the bits, one stands between octets, one frames the
whole, and one is padding. Reading accepts what writing produces, with more frame marks around it and
padding anywhere.
-/
namespace Runbook

namespace ZeroWidth

def zeroBit : Char := '\u200b'
def oneBit : Char := '\u200c'
def separator : Char := '\u200d'
def padding : Char := '\u2060'
def frame : Char := '\ufeff'

def isZeroWidth (c : Char) : Bool :=
  c = zeroBit || c = oneBit || c = separator || c = padding || c = frame

/-- The eight bits of an octet, highest first. -/
def octetBits (b : UInt8) : Text :=
  (List.range 8).map fun i => if b.toNat / 2 ^ (7 - i) % 2 = 1 then oneBit else zeroBit

/-- The octets with a separator between each two, unframed. -/
def body (bs : List UInt8) : Text := Text.join [separator] (bs.map octetBits)

def encode (bs : List UInt8) : Text := frame :: body bs ++ [frame]

def bit? (c : Char) : Option Nat :=
  if c = zeroBit then some 0 else if c = oneBit then some 1 else none

def octet? (group : Text) : Option UInt8 :=
  if group.length = 8 then
    (group.mapM bit?).map fun bits => UInt8.ofNat (bits.foldl (fun n b => 2 * n + b) 0)
  else none

/-- The octets of a run, without its padding and the frame marks at both ends. -/
def decode (run : Text) : Option (List UInt8) :=
  let inside := Text.trim (· = frame) (run.filter (· ≠ padding))
  if inside.isEmpty ∨ frame ∈ inside then none
  else (Text.splitAt separator inside).mapM octet?

/-- A text with octets hidden at its end. -/
def conceal (t : Text) (bs : List UInt8) : Text := t ++ encode bs

def strip (t : Text) : Text := t.filter (!isZeroWidth ·)

end ZeroWidth

/-- A run of characters without width, with its octets if it is well formed. -/
structure HiddenRun where
  offset : Nat
  length : Nat
  data : Option (List UInt8)
  deriving DecidableEq, Repr, Inhabited

namespace HiddenRun

/-- All runs of a text. One byte-order mark at the very start of the text is none. -/
def all (t : Text) : List HiddenRun :=
  (Text.hits (Text.runOf ZeroWidth.isZeroWidth) t).filterMap fun h =>
    if h.offset = 0 ∧ h.value = [ZeroWidth.frame] then none
    else some ⟨h.offset, h.length, ZeroWidth.decode h.value⟩

/-- The octets of the well-formed runs. -/
def reveal (t : Text) : List (List UInt8) := (all t).filterMap (·.data)

def hexText (bs : List UInt8) : Text := bs.flatMap fun b => Text.hex 2 b.toNat

/-- Hidden octets are shown as text when they are UTF-8 and in hexadecimal digits otherwise. -/
def toValue (r : HiddenRun) : Value :=
  .ofFields (
    Fields.one "offset" (.int r.offset) ++ Fields.one "length" (.int r.length) ++
    Fields.one "valid" (.bool r.data.isSome) ++
    match r.data with
    | none => []
    | some bs =>
      match Text.ofUtf8? bs with
      | some t => Fields.one "text" (.text t)
      | none => Fields.one "bytes_hex" (.text (hexText bs)))

end HiddenRun
end Runbook
