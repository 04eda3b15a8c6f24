/-! Closed intervals of code points, the form in which character properties are tabulated. -/

namespace PatternLint.Text.Interval

/-- Some interval of the table contains the code point. -/
def covers (table : List (Nat × Nat)) (n : Nat) : Bool :=
  table.any fun (lo, hi) => lo ≤ n && n ≤ hi

end PatternLint.Text.Interval
