/-! Three classes of white space: what the reader skips, what separates words of ordinary text,
and what may surround a numeral. -/

namespace PatternLint.Text

/-- White space between data: the ASCII blanks and the no-break space. -/
def isBlank (c : Char) : Bool :=
  c ∈ [' ', '\t', '\n', '\r', '\x0c', '\x0b', '\u00a0']

/-- The blanks of ASCII. -/
def isAsciiSpace (c : Char) : Bool :=
  c ∈ [' ', '\t', '\n', '\r', '\x0c', '\x0b']

/-- White space of running text, separators of lines and paragraphs included. -/
def isSpace (c : Char) : Bool :=
  let n := c.toNat
  (9 ≤ n && n ≤ 13) || (0x1c ≤ n && n ≤ 0x20) || n == 0x85 || n == 0xa0 || n == 0x1680 ||
    (0x2000 ≤ n && n ≤ 0x200a) || n == 0x2028 || n == 0x2029 || n == 0x202f || n == 0x205f ||
    n == 0x3000

end PatternLint.Text
