import PatternLint.Reader.Escape
import PatternLint.Text.Blank

/-! White space, comments and skip marks: what may stand between two data. -/

namespace PatternLint.Reader

/-- A comment runs to the end of its line, which belongs to it. -/
def commentLength (cs : List Char) : Nat :=
  (cs.takeWhile (· != '\n')).length + 1

theorem Cursor.skip_shorter {c : Cursor} {n : Nat} (hn : 0 < n) (hc : c.rest ≠ []) :
    (c.skip n).rest.length < c.rest.length := by
  have := List.length_pos_iff.2 hc
  simp [Cursor.skip, Cursor.drop]
  omega

/-- Passes over white space, comments and skip marks. A mark `#@` with a number passes over that
many characters after it; with the number `00`, or none, over the rest of the text. -/
def skipBlanks (c : Cursor) : Except Text.Numeral.Fault Cursor :=
  match _h : c.rest with
  | [] => .ok c
  | '#' :: '@' :: tail =>
    let digits := tail.takeWhile Text.isDigit
    if digits = [] ∨ digits = ['0', '0'] then .ok (c.drop c.rest.length)
    else
      match Text.Numeral.read 10 digits with
      | .error f => .error f
      | .ok n => skipBlanks (c.skip (2 + digits.length + n.toNat))
  | x :: _ =>
    if Text.isBlank x then skipBlanks (c.skip 1)
    else if x == ';' then skipBlanks (c.skip (commentLength c.rest))
    else .ok c
termination_by c.rest.length
decreasing_by
  · exact Cursor.skip_shorter (by omega) (by simp [_h])
  · exact Cursor.skip_shorter (by omega) (by simp [_h])
  · exact Cursor.skip_shorter (by simp [commentLength]) (by simp [_h])

theorem skipBlanks_shorter {c next : Cursor} (h : skipBlanks c = .ok next) :
    next.rest.length ≤ c.rest.length := by
  fun_induction skipBlanks c with
  | case1 => cases h; exact Nat.le_refl _
  | case2 => cases h; simp [Cursor.drop]
  | case3 => cases h
  | case4 c tail hc digits hd n hn ih =>
    exact Nat.le_trans (ih h) (by simp [Cursor.skip, Cursor.drop])
  | case5 c x tail hc _ hx ih => exact Nat.le_trans (ih h) (by simp [Cursor.skip, Cursor.drop])
  | case6 c x tail hc _ _ hx ih => exact Nat.le_trans (ih h) (by simp [Cursor.skip, Cursor.drop])
  | case7 => cases h; exact Nat.le_refl _

end PatternLint.Reader
