import PatternLint.Power
import PatternLint.Reader.Cursor
import PatternLint.Text.CharName
import PatternLint.Text.Search

/-! Characters and the backslash sequences that stand for them. A code is any integer: modifiers set
bits above the range of characters. -/

namespace PatternLint.Reader

def modifierShift : Nat := 22

/-- The bit of a modifier key, by the letter that names it. -/
def modifierBit? : Char → Option Nat
  | 'A' => some 22
  | 's' => some 23
  | 'H' => some 24
  | 'S' => some 25
  | 'C' => some 26
  | 'M' => some 27
  | _ => none

/-- Codes of the one-letter escapes. -/
def simpleEscape? : Char → Option Nat
  | 'a' => some 7
  | 'b' => some 8
  | 't' => some 9
  | 'n' => some 10
  | 'v' => some 11
  | 'f' => some 12
  | 'r' => some 13
  | 'e' => some 27
  | 'd' => some 127
  | _ => none

/-- Sets one bit of an integer in two's complement. -/
def setBit (bit : Nat) (n : Int) : Int :=
  if n / pow2 bit % 2 = 1 then n else n + pow2 bit

/-- The bits of the six modifiers, in place. -/
def modifiers (n : Int) : Int :=
  n / pow2 modifierShift % 64 * pow2 modifierShift

/-- The control modifier: letters and their neighbours become control characters, the question mark
becomes delete, and anything else is marked by a bit. -/
def control (code : Int) : Int :=
  let mods := modifiers code
  let base := code - mods
  if base = 63 then 127 + mods
  else if (64 ≤ base ∧ base ≤ 95) ∨ (97 ≤ base ∧ base ≤ 122) then base % 32 + mods
  else setBit 26 code

/-- The meta modifier of an ASCII character in a string is the eighth bit. -/
def modify (inString : Bool) (key : Char) (bit : Nat) (code : Int) : Int :=
  if key == 'C' then control code
  else if key == 'M' && inString && code < 128 then setBit 7 code
  else setBit bit code

def isHexDigit (c : Char) : Bool :=
  Text.isDigitOf 16 c

def isOctalDigit (c : Char) : Bool :=
  Text.isDigitOf 8 c

/-- The characters up to a closing brace, and the place behind it. -/
def braced? (c : Cursor) : Option (List Char × Cursor) :=
  match Text.find? ['\x7d'] c.rest with
  | some n => some (c.rest.take n, c.drop (n + 1))
  | none => none

def readNumeral (base : Nat) (digits : List Char) : Except Fault Int :=
  (Text.Numeral.read base digits).mapError .numeral

/-- The digits of a hexadecimal escape: those in braces, or as many as follow. -/
def hexDigits? (c : Cursor) : Option (List Char × Cursor) :=
  if c.startsWith "\x7b" then braced? (c.drop 1)
  else some (c.rest.takeWhile isHexDigit, c.drop (c.rest.takeWhile isHexDigit).length)

def hexEscape (origin c : Cursor) : Except Fault (Int × Cursor) :=
  match hexDigits? c with
  | none | some ([], _) => origin.fail .badEscape
  | some (digits, next) => (readNumeral 16 digits).map (·, next)

/-- A code of exactly `width` digits in base sixteen. -/
def unicodeEscape (origin c : Cursor) (width : Nat) : Except Fault (Int × Cursor) :=
  if (c.rest.take width).length = width ∧ (c.rest.take width).all isHexDigit then
    (readNumeral 16 (c.rest.take width)).map (·, c.drop width)
  else origin.fail .badUnicodeEscape

/-- A character by its name, or by its code after `U+`. -/
def namedCode? (name : List Char) : Option Int :=
  if "U+".toList.isPrefixOf name then (Text.Numeral.read 16 (name.drop 2)).toOption
  else (Text.charNamed? name).map Int.ofNat

/-- A named character; `c` stands behind the opening brace. -/
def nameEscape (origin c : Cursor) : Except Fault (Int × Cursor) :=
  match braced? c with
  | none => origin.fail .openCharName
  | some (name, next) =>
    match namedCode? name with
    | some code => .ok (code, next)
    | none => origin.fail (.badCharName (String.ofList name))

/-- A code of up to three digits in base eight, the first of them given. -/
def octalEscape (key : Char) (c : Cursor) : Int × Cursor :=
  let more := (c.rest.take 2).takeWhile isOctalDigit
  let digits := (key :: more).map fun d => (Text.asciiDigitValue? d).getD 0
  (Text.Numeral.ofDigits 8 digits, c.drop more.length)

/-- The escapes that stand for one code, by the letter after the backslash; `c` stands behind it. -/
def codeEscape (origin : Cursor) (key : Char) (c : Cursor) : Except Fault (Int × Cursor) :=
  if key == 's' then .ok (32, c)
  else match simpleEscape? key with
    | some code => .ok (code, c)
    | none =>
      if key == 'x' then hexEscape origin c
      else if isOctalDigit key then .ok (octalEscape key c)
      else if key == 'u' then unicodeEscape origin c 4
      else if key == 'U' then unicodeEscape origin c 8
      else if key == 'N' && c.startsWith "\x7b" then nameEscape origin (c.drop 1)
      else .ok (key.toNat, c)

/-- What a modifier does to a code, and where the modified character begins. -/
def modifier? (inString : Bool) (key : Char) (c : Cursor) : Option ((Int → Int) × Cursor) :=
  match modifierBit? key with
  | some bit =>
    if c.startsWith "-" then some (modify inString key bit, c.drop 1) else none
  | none => if key == '^' then some (control, c) else none

theorem modifier?_shorter {inString : Bool} {key : Char} {c next : Cursor} {f : Int → Int}
    (h : modifier? inString key c = some (f, next)) : next.rest.length ≤ c.rest.length := by
  unfold modifier? at h
  split at h <;> split at h <;> cases h <;> simp [Cursor.drop]

/-- Reads one character, which may be escaped. In a string an escaped blank or end of line stands
for no character. -/
def character (inString : Bool) (c : Cursor) : Except Fault (Option Int × Cursor) :=
  match _h : c.rest with
  | [] => c.fail .endOfFile
  | ['\\'] => c.fail .endOfFile
  | '\\' :: key :: _ =>
    if inString && (key == '\n' || key == ' ') then .ok (none, c.drop 2)
    else if inString && key == 's' then .ok (some 32, c.drop 2)
    else match _hm : modifier? inString key (c.drop 2) with
      | some (f, body) =>
        match character inString body with
        | .error fault => .error fault
        | .ok (none, _) => c.fail .modifiedNothing
        | .ok (some code, next) => .ok (some (f code), next)
      | none =>
        match codeEscape c key (c.drop 2) with
        | .error fault => .error fault
        | .ok (code, next) => .ok (some code, next)
  | x :: _ => .ok (some x.toNat, c.drop 1)
termination_by c.rest.length
decreasing_by
  have := modifier?_shorter _hm
  simp [Cursor.drop, _h] at this ⊢
  omega

theorem braced?_shorter {c next : Cursor} {text : List Char} (h : braced? c = some (text, next)) :
    next.rest.length ≤ c.rest.length := by
  unfold braced? at h
  split at h <;> simp at h
  simp [← h.2, Cursor.drop]

theorem hexDigits?_shorter {c next : Cursor} {text : List Char}
    (h : hexDigits? c = some (text, next)) : next.rest.length ≤ c.rest.length := by
  unfold hexDigits? at h
  split at h
  · have := braced?_shorter h
    simp [Cursor.drop] at this
    omega
  · simp at h
    simp [← h.2, Cursor.drop]

theorem map_pair_ok {e : Except Fault Int} {next next' : Cursor} {code : Int}
    (h : e.map (·, next) = .ok (code, next')) : next = next' := by
  cases e <;> simp_all [Except.map]

theorem hexEscape_shorter {origin c next : Cursor} {code : Int}
    (h : hexEscape origin c = .ok (code, next)) : next.rest.length ≤ c.rest.length := by
  unfold hexEscape at h
  split at h
  · cases h
  · cases h
  · rename_i hd
    exact map_pair_ok h ▸ hexDigits?_shorter hd

theorem unicodeEscape_shorter {origin c next : Cursor} {width : Nat} {code : Int}
    (h : unicodeEscape origin c width = .ok (code, next)) :
    next.rest.length ≤ c.rest.length := by
  unfold unicodeEscape at h
  split at h
  · rw [← map_pair_ok h]; simp [Cursor.drop]
  · cases h

theorem nameEscape_shorter {origin c next : Cursor} {code : Int}
    (h : nameEscape origin c = .ok (code, next)) : next.rest.length ≤ c.rest.length := by
  unfold nameEscape at h
  split at h
  · cases h
  · rename_i hb
    split at h <;> cases h
    exact braced?_shorter hb

theorem codeEscape_shorter {origin c next : Cursor} {key : Char} {code : Int}
    (h : codeEscape origin key c = .ok (code, next)) : next.rest.length ≤ c.rest.length := by
  unfold codeEscape at h
  split at h
  · cases h; exact Nat.le_refl _
  split at h
  · cases h; exact Nat.le_refl _
  split at h
  · exact hexEscape_shorter h
  split at h
  · cases h; simp [Cursor.drop]
  split at h
  · exact unicodeEscape_shorter h
  split at h
  · exact unicodeEscape_shorter h
  split at h
  · have := nameEscape_shorter h
    simp [Cursor.drop] at this
    omega
  · cases h; exact Nat.le_refl _

/-- A character takes at least one character of the text. -/
theorem character_shorter {inString : Bool} {c next : Cursor} {code : Option Int}
    (h : character inString c = .ok (code, next)) : next.rest.length < c.rest.length := by
  fun_induction character inString c generalizing code next with
  | case1 => cases h
  | case2 => cases h
  | case3 c key tail hc =>
    cases h
    simp only [Cursor.drop, hc, List.length_drop, List.length_cons]
    omega
  | case4 c key tail hc =>
    cases h
    simp only [Cursor.drop, hc, List.length_drop, List.length_cons]
    omega
  | case5 => cases h
  | case6 => cases h
  | case7 c key tail hc _ _ f body hm code next hb ih =>
    cases h
    have := modifier?_shorter hm
    have := ih hb
    simp [Cursor.drop, hc] at *
    omega
  | case8 => cases h
  | case9 c key tail hc _ _ hm code next hb =>
    cases h
    have := codeEscape_shorter hb
    simp [Cursor.drop, hc] at *
    omega
  | case10 c x tail _ _ hc => cases h; simp [Cursor.drop, hc]

/-- The character of a code in a string; a code beyond all characters becomes the replacement
character. -/
def charOfCode (code : Int) : Char :=
  if 0 ≤ code ∧ code.toNat.isValidChar then Char.ofNat code.toNat else Char.ofNat 0xfffd

end PatternLint.Reader
