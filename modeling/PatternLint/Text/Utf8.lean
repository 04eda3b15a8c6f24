/-! Reading text from bytes. Every character has exactly one encoding, of one to four bytes; a fault
names the first bytes that are part of none. -/

namespace PatternLint.Text.Utf8

inductive Problem where
  | start
  | continuation
  | cut
  deriving Repr, DecidableEq

/-- The bytes from `pos` on, `count` of them, are no part of a text;
`first` is the first of them. -/
structure Fault where
  pos : Nat
  count : Nat
  first : Nat
  problem : Problem
  deriving Repr, DecidableEq

def Problem.message : Problem → String
  | .start => "invalid start byte"
  | .continuation => "invalid continuation byte"
  | .cut => "unexpected end of data"

def hexByte (n : Nat) : String :=
  String.ofList [Nat.digitChar (n / 16), Nat.digitChar (n % 16)]

def Fault.message (f : Fault) : String :=
  let place :=
    if f.count = 1 then s!"byte 0x{hexByte f.first} in position {f.pos}"
    else s!"bytes in position {f.pos}-{f.pos + f.count - 1}"
  s!"'utf-8' codec can't decode {place}: {f.problem.message}"

def isContinuation (b : Nat) : Bool :=
  0x80 ≤ b && b < 0xc0

/-- How many bytes a character with a given first byte has, and the least and the greatest value of
its second byte. -/
def header? (b : Nat) : Option (Nat × Nat × Nat) :=
  if b < 0x80 then some (1, 0, 0)
  else if b < 0xc2 then none
  else if b < 0xe0 then some (2, 0x80, 0xbf)
  else if b = 0xe0 then some (3, 0xa0, 0xbf)
  else if b = 0xed then some (3, 0x80, 0x9f)
  else if b < 0xf0 then some (3, 0x80, 0xbf)
  else if b = 0xf0 then some (4, 0x90, 0xbf)
  else if b < 0xf4 then some (4, 0x80, 0xbf)
  else if b = 0xf4 then some (4, 0x80, 0x8f)
  else none

/-- The length of the beginning of some bytes that can be the rest of a character. -/
def validTail (low high : Nat) : List Nat → Nat
  | [] => 0
  | b :: rest =>
    if low ≤ b ∧ b ≤ high then 1 + (rest.takeWhile isContinuation).length else 0

/-- The bits that the first of `size` bytes carries. -/
def leadBits (size b : Nat) : Nat :=
  if size = 1 then b else if size = 2 then b - 0xc0 else if size = 3 then b - 0xe0 else b - 0xf0

/-- The character at the start of some bytes, and the number of bytes behind its first one. -/
def next (pos b : Nat) (rest : List Nat) : Except Fault (Char × Nat) :=
  match header? b with
  | none => .error ⟨pos, 1, b, .start⟩
  | some (size, low, high) =>
    let tail := rest.take (size - 1)
    let good := if size = 1 then 0 else validTail low high tail
    if good < tail.length then .error ⟨pos, 1 + good, b, .continuation⟩
    else if tail.length + 1 < size then .error ⟨pos, 1 + tail.length, b, .cut⟩
    else .ok (Char.ofNat (tail.foldl (fun n x => n * 64 + (x - 0x80)) (leadBits size b)), size - 1)

/-- Decodes bytes behind characters that were decoded already, which are given in reverse. -/
def decodeFrom (out : List Char) (pos : Nat) (bytes : List Nat) : Except Fault (List Char) :=
  match bytes with
  | [] => .ok out.reverse
  | b :: rest =>
    match next pos b rest with
    | .error f => .error f
    | .ok (c, n) => decodeFrom (c :: out) (pos + 1 + n) (rest.drop n)
termination_by bytes.length
decreasing_by simp only [List.length_drop, List.length_cons]; omega

def decode (bytes : List Nat) : Except Fault (List Char) :=
  decodeFrom [] 0 bytes

end PatternLint.Text.Utf8
