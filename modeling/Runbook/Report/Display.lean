import Runbook.Calendar.Iso
import Runbook.Text.Pieces

/-! How a report shows moments and the output of tools. -/
namespace Runbook.Display

/-- A moment on the clock of universal time, unless that is outside the years of the calendar. -/
def stamp? (t : Moment) : Option Text :=
  t.toUniversal?.map fun u =>
    Text.ofNat u.date.year ++ "-" ++ Moment.two u.date.month ++ "-" ++ Moment.two u.date.day ++ " " ++
      Moment.two u.hour ++ ":" ++ Moment.two u.minute ++ ":" ++ Moment.two u.second ++ " UTC"

/-- A text that writes a moment as a stamp, any other as it is. -/
def time? : Option Text → Option Text
  | none => some "N/A"
  | some t =>
    match Iso.moment? t with
    | some m => stamp? m
    | none => some t

/-- The items after all but the last `n`; none are dropped for 0, and the first `-n` for less. -/
def lastItems {α : Type} (n : Int) (as : List α) : List α :=
  if 0 < n then as.drop (as.length - n.toNat) else as.drop (-n).toNat

def lineBody (t : Text) : Text := Text.dropEndWhile (· = '\n') t

/-- The last lines of an output, under a line that tells how many are left out. -/
def tail (most : Int) (t : Text) : Text :=
  if t.isEmpty then []
  else
    let lines := (lineBody t).splitAt '\n'
    if (lines.length : Int) ≤ most then Text.joinLines lines
    else
      let left := Text.ofInt (lines.length - most)
      Text.joinLines (("... [" ++ left ++ " more lines] ...") :: lastItems most lines)

def isBacktick (c : Char) : Bool := c = '\x60'

/-- The length of the longest run of backticks. -/
def longestRun (t : Text) : Nat :=
  ((Text.hits (Text.runOf isBacktick) t).map (·.length)).foldl max 0

/-- An output in a fence that is longer than any run of backticks in it. -/
def fenced (language : Text) (t : Text) : Text :=
  let body := lineBody t
  let fence := Text.repeated (max 3 (longestRun body + 1)) '\x60'
  fence ++ language ++ "\n" ++ body ++ "\n" ++ fence

end Runbook.Display
