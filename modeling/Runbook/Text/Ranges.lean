/-! Sets of code points written as ranges, both ends included. -/
namespace Runbook.Text

abbrev Ranges := Array (Nat × Nat)

def Ranges.has (rs : Ranges) (n : Nat) : Bool := rs.any fun (lo, hi) => lo ≤ n && n ≤ hi

end Runbook.Text
