import PatternLint.Reader.Blank
import PatternLint.Decimal.Double

/-! Tokens of the syntax of data, each with the place it starts and ends at. -/

namespace PatternLint.Reader

/-- What a token may open: a list, a vector, a vector-like object after `#`, a record, or a string
with properties. -/
inductive Opener where
  | list
  | vector
  | hashVector (mark : String)
  | record
  | properties
  deriving Repr, DecidableEq

inductive Closer where
  | paren
  | bracket
  deriving Repr, DecidableEq

/-- Abbreviations for a list of a symbol and one datum. -/
inductive Sugar where
  | quote
  | function
  | backquote
  | unquote
  | splice
  deriving Repr, DecidableEq

inductive Lexeme where
  | opener (o : Opener)
  | closer (c : Closer)
  | sugar (s : Sugar)
  | string (text : String)
  | char (code : Int)
  | atom (text : String) (escaped : Bool)
  | dot
  | number (n : Int)
  | boolVector (text : String)
  | labelDef (label : Nat)
  | labelRef (label : Nat)
  | extension
  deriving Repr, DecidableEq

structure Token where
  lexeme : Lexeme
  start : Nat
  stop : Nat
  deriving Repr, DecidableEq

def Opener.closer : Opener → Closer
  | .list | .record | .properties => .paren
  | .vector | .hashVector _ => .bracket

def Opener.text : Opener → String
  | .list => "("
  | .vector => "["
  | .hashVector mark => mark
  | .record => "#s("
  | .properties => "#("

def Closer.text : Closer → String
  | .paren => ")"
  | .bracket => "]"

def Sugar.text : Sugar → String
  | .quote => "'"
  | .function => "#'"
  | .backquote => "`"
  | .unquote => ","
  | .splice => ",@"

/-- The symbol that the abbreviation stands for. -/
def Sugar.symbol : Sugar → String
  | .quote => "quote"
  | .function => "function"
  | .backquote => "`"
  | .unquote => ","
  | .splice => ",@"

def graveAccent : Char := '\x60'

def apostrophe : Char := '\x27'

/-- Tokens of one character. -/
def singleLexeme? (x : Char) : Option Lexeme :=
  if x == '(' then some (.opener .list)
  else if x == ')' then some (.closer .paren)
  else if x == '[' then some (.opener .vector)
  else if x == ']' then some (.closer .bracket)
  else if x == apostrophe then some (.sugar .quote)
  else if x == graveAccent then some (.sugar .backquote)
  else none

/-- Characters that end a symbol or a number: white space, and what begins another token or a
comment. -/
def isDelimiter (c : Char) : Bool :=
  Text.isBlank c || (singleLexeme? c).isSome || c == '"' || c == ';' || c == ','

/-- The characters of a symbol or number, whether any was escaped, and the place behind it. -/
def scanAtom (out : List Char) (escaped : Bool) (pos : Nat) :
    List Char → Except Fault (String × Bool × Cursor)
  | [] => .ok (String.ofList out.reverse, escaped, ⟨pos, []⟩)
  | ['\\'] => .error (.malformed pos .endOfFile)
  | '\\' :: c :: rest => scanAtom (c :: out) true (pos + 2) rest
  | c :: rest =>
    if isDelimiter c then .ok (String.ofList out.reverse, escaped, ⟨pos, c :: rest⟩)
    else scanAtom (c :: out) escaped (pos + 1) rest

def atomAt (c : Cursor) : Except Fault (String × Bool × Cursor) :=
  scanAtom [] false c.pos c.rest

/-- The text of a string literal and the place behind its closing quote; `c` stands inside it. -/
def scanString (origin : Cursor) (out : List Char) (c : Cursor) : Except Fault (String × Cursor) :=
  match _h : c.rest with
  | [] => origin.fail .endOfFile
  | '"' :: _ => .ok (String.ofList out.reverse, c.drop 1)
  | '\\' :: _ =>
    match _hc : character true c with
    | .error f => .error f
    | .ok (none, next) => scanString origin out next
    | .ok (some code, next) => scanString origin (charOfCode code :: out) next
  | x :: _ => scanString origin (x :: out) (c.drop 1)
termination_by c.rest.length
decreasing_by
  · exact character_shorter _hc
  · exact character_shorter _hc
  · simp [Cursor.drop, _h]

/-- The literal whose opening quote stands at `c`. -/
def stringAt (c : Cursor) : Except Fault (String × Cursor) :=
  scanString c [] (c.drop 1)

/-- A label `#N=` or `#N#`: its digits and the mark after them. -/
def labelMark? (c : Cursor) : Option (List Char × Char × Cursor) :=
  let digits := (c.rest.drop 1).takeWhile (Text.isDigitOf 10)
  let after := c.drop (1 + digits.length)
  match after.rest with
  | mark :: _ =>
    if digits ≠ [] ∧ (mark = '=' ∨ mark = '#') then some (digits, mark, after.drop 1) else none
  | [] => none

def radixOfLetter? (c : Char) : Option Nat :=
  if c == 'x' || c == 'X' then some 16
  else if c == 'o' || c == 'O' then some 8
  else if c == 'b' || c == 'B' then some 2
  else none

def isAlphanumericAscii (c : Char) : Bool :=
  Text.isDigitOf 36 c

/-- The mark of a base: a letter after `#`, or digits and the letter `r`. -/
def radixMark? (c : Cursor) : Option ((Nat ⊕ List Char) × Cursor) :=
  match c.rest.drop 1 with
  | [] => none
  | letter :: _ =>
    match radixOfLetter? letter with
    | some radix => some (.inl radix, c.drop 2)
    | none =>
      let digits := (c.rest.drop 1).takeWhile (Text.isDigitOf 10)
      let after := c.drop (1 + digits.length)
      match after.rest with
      | r :: _ =>
        if digits ≠ [] ∧ (r = 'r' ∨ r = 'R') then some (.inr digits, after.drop 1) else none
      | [] => none

/-- A sign and letters and digits, at least one. -/
def radixDigits? (c : Cursor) : Option (List Char × Cursor) :=
  let sign := c.rest.take 1 |>.filter fun x => x == '+' || x == '-'
  let digits := (c.rest.drop sign.length).takeWhile isAlphanumericAscii
  if digits = [] then none
  else some (sign ++ digits, c.drop (sign.length + digits.length))

/-- An integer in an explicit base. -/
def radixNumber? (c : Cursor) : Option (Except Fault (Lexeme × Cursor)) :=
  match radixMark? c with
  | none => none
  | some (mark, body) =>
    match radixDigits? body with
    | none => none
    | some (digits, next) =>
      let radix? : Except Fault Nat := match mark with
        | .inl radix => .ok radix
        | .inr digits => (readNumeral 10 digits).map Int.toNat
      some <| match radix? with
        | .error f => .error f
        | .ok radix =>
          match Text.Numeral.read radix digits with
          | .ok n => .ok (.number n, next)
          | .error _ => c.fail (.badRadix (String.ofList (c.rest.take (next.pos - c.pos))))

/-- Marks after `#` that are whole tokens. -/
def fixedMarks : List (String × Lexeme) :=
  [("#'", .sugar .function), ("#(", .opener .properties), ("#[", .opener (.hashVector "#[")),
    ("#s(", .opener .record), ("#^[", .opener (.hashVector "#^[")),
    ("#^^[", .opener (.hashVector "#^^[")), ("##", .atom "" true)]

def fixedMark? (c : Cursor) : Option (Lexeme × Cursor) :=
  (fixedMarks.find? fun m => c.startsWith m.1).map fun m => (m.2, c.drop m.1.length)

/-- A symbol without a home, or written in full, after `#:` or `#_`. -/
def bareSymbol (c : Cursor) : Except Fault (Lexeme × Cursor) :=
  match atomAt (c.drop 2) with
  | .error f => .error f
  | .ok (text, _, next) => .ok (.atom text true, next)

def boolVectorLexeme (c : Cursor) : Lexeme × Cursor :=
  let count := 2 + ((c.rest.drop 2).takeWhile Text.isDigit).length
  (.boolVector (String.ofList (c.rest.take count)), c.drop count)

def labelLexeme (digits : List Char) (mark : Char) (next : Cursor) :
    Except Fault (Lexeme × Cursor) :=
  match readNumeral 10 digits with
  | .error f => .error f
  | .ok n => .ok (if mark = '=' then .labelDef n.toNat else .labelRef n.toNat, next)

/-- The extensions of the syntax that begin with `#`. A mark that is not known is an error, or with
`tolerant` a token of its own. -/
def hashLexeme (tolerant : Bool) (c : Cursor) : Except Fault (Lexeme × Cursor) :=
  match fixedMark? c with
  | some r => .ok r
  | none =>
    let after := (c.rest.drop 1).head?
    if after.all fun x => x == ':' || x == '_' then bareSymbol c
    else if after = some '&' then .ok (boolVectorLexeme c)
    else match labelMark? c with
      | some (digits, mark, next) => labelLexeme digits mark next
      | none =>
        match radixNumber? c with
        | some r => r
        | none =>
          if tolerant then .ok (.extension, c.drop 1)
          else .error (.unknownExtension c.pos (String.ofList ('#' :: after.toList)))

def commaLexeme (c : Cursor) : Lexeme × Cursor :=
  if c.startsWith ",@" then (.sugar .splice, c.drop 2) else (.sugar .unquote, c.drop 1)

def stringLexeme (c : Cursor) : Except Fault (Lexeme × Cursor) :=
  match stringAt c with
  | .error f => .error f
  | .ok (text, next) => .ok (.string text, next)

/-- A character after a question mark. -/
def charLexeme (c : Cursor) : Except Fault (Lexeme × Cursor) :=
  if (c.rest.drop 1).isEmpty then c.fail .endOfFile
  else
    match character false (c.drop 1) with
    | .error f => .error f
    | .ok (code?, next) => .ok (.char (code?.getD 0), next)

/-- A symbol, a number or a dot that stands alone. -/
def atomLexeme (c : Cursor) : Except Fault (Lexeme × Cursor) :=
  match atomAt c with
  | .error f => .error f
  | .ok (text, escaped, next) =>
    .ok (if text == "." && !escaped then .dot else .atom text escaped, next)

/-- The token at a place that holds neither white space nor the end of the text. -/
def lexeme (tolerant : Bool) (c : Cursor) (x : Char) : Except Fault (Lexeme × Cursor) :=
  match singleLexeme? x with
  | some l => .ok (l, c.drop 1)
  | none =>
    if x == ',' then .ok (commaLexeme c)
    else if x == '"' then stringLexeme c
    else if x == '?' then charLexeme c
    else if x == '#' then hashLexeme tolerant c
    else atomLexeme c

/-- The next token, if the text holds one, and the place behind it. -/
def token? (tolerant : Bool) (c : Cursor) : Except Fault (Option (Token × Cursor)) :=
  match skipBlanks c with
  | .error f => .error (.numeral f)
  | .ok here =>
    match here.rest with
    | [] => .ok none
    | x :: _ =>
      match lexeme tolerant here x with
      | .error f => .error f
      | .ok (lexeme, next) => .ok (some (⟨lexeme, here.pos, next.pos⟩, next))

theorem scanAtom_shorter {cs out : List Char} {escaped escaped' : Bool} {pos : Nat} {text : String}
    {next : Cursor} (h : scanAtom out escaped pos cs = .ok (text, escaped', next)) :
    next.rest.length ≤ cs.length := by
  fun_induction scanAtom out escaped pos cs with
  | case1 => cases h; simp
  | case2 => cases h
  | case3 out _ pos c rest ih => have := ih h; simp; omega
  | case4 => cases h; simp
  | case5 out _ pos c rest _ _ _ ih => have := ih h; simp; omega

theorem scanString_shorter {origin c next : Cursor} {out : List Char} {text : String}
    (h : scanString origin out c = .ok (text, next)) : next.rest.length < c.rest.length := by
  fun_induction scanString origin out c with
  | case1 => cases h
  | case2 out c tail hc => cases h; simp [Cursor.drop, hc]
  | case3 => cases h
  | case4 out c tail hc next' hn ih => exact Nat.lt_trans (ih h) (character_shorter hn)
  | case5 out c tail hc code next' hn ih => exact Nat.lt_trans (ih h) (character_shorter hn)
  | case6 out c x tail _ _ hc ih => have := ih h; simp [Cursor.drop, hc] at *; omega

theorem labelMark?_shorter {c next : Cursor} {digits : List Char} {mark : Char}
    (h : labelMark? c = some (digits, mark, next)) : next.rest.length < c.rest.length := by
  simp only [labelMark?] at h
  split at h <;> try split at h
  all_goals cases h
  rename_i hr _
  have : 0 < (c.drop (1 + ((c.rest.drop 1).takeWhile (Text.isDigitOf 10)).length)).rest.length := by
    rw [hr]; simp
  simp [Cursor.drop] at this ⊢
  omega

theorem radixMark?_shorter {c next : Cursor} {mark : Nat ⊕ List Char}
    (h : radixMark? c = some (mark, next)) : next.rest.length < c.rest.length := by
  simp only [radixMark?] at h
  split at h
  · cases h
  rename_i letter rest hd
  have hl : 1 < c.rest.length := by
    have := congrArg List.length hd
    simp at this
    omega
  split at h
  · cases h; simp [Cursor.drop]; omega
  split at h <;> try split at h
  all_goals cases h
  simp [Cursor.drop]
  omega

theorem radixDigits?_shorter {c next : Cursor} {digits : List Char}
    (h : radixDigits? c = some (digits, next)) : next.rest.length ≤ c.rest.length := by
  simp only [radixDigits?] at h
  split at h <;> cases h
  simp [Cursor.drop]

theorem radixNumber?_shorter {c next : Cursor} {l : Lexeme}
    (h : radixNumber? c = some (.ok (l, next))) : next.rest.length < c.rest.length := by
  simp only [radixNumber?] at h
  split at h
  · cases h
  rename_i hm
  split at h
  · cases h
  rename_i hd
  have := radixMark?_shorter hm
  have := radixDigits?_shorter hd
  split at h
  · cases h
  split at h <;> cases h
  omega

theorem fixedMark?_shorter {c next : Cursor} {l : Lexeme} (hc : 0 < c.rest.length)
    (h : fixedMark? c = some (l, next)) : next.rest.length < c.rest.length := by
  obtain ⟨m, hm, hn⟩ := Option.map_eq_some_iff.1 h
  have all : ∀ m ∈ fixedMarks, 0 < m.1.length := by decide
  have := all m (List.mem_of_find?_eq_some hm)
  cases hn
  simp [Cursor.drop]
  omega

theorem bareSymbol_shorter {c next : Cursor} {l : Lexeme} (hc : 0 < c.rest.length)
    (h : bareSymbol c = .ok (l, next)) : next.rest.length < c.rest.length := by
  unfold bareSymbol at h
  split at h <;> cases h
  rename_i ha
  have := scanAtom_shorter ha
  simp [Cursor.drop] at this
  omega

theorem hashLexeme_shorter {tolerant : Bool} {c next : Cursor} {l : Lexeme}
    (hc : 0 < c.rest.length) (h : hashLexeme tolerant c = .ok (l, next)) :
    next.rest.length < c.rest.length := by
  unfold hashLexeme at h
  split at h
  · rename_i hm
    cases h
    exact fixedMark?_shorter hc hm
  simp only at h
  split at h
  · exact bareSymbol_shorter hc h
  split at h
  · cases h; simp [Cursor.drop]; omega
  split at h
  · rename_i hm
    unfold labelLexeme at h
    split at h <;> cases h
    exact labelMark?_shorter hm
  split at h
  · rename_i hr
    exact radixNumber?_shorter (h ▸ hr)
  split at h <;> cases h
  simp [Cursor.drop]; omega

theorem scanAtom_shorter_of_not_delimiter {x : Char} {cs out : List Char} {escaped escaped' : Bool}
    {pos : Nat} {text : String} {next : Cursor} (hx : isDelimiter x = false)
    (h : scanAtom out escaped pos (x :: cs) = .ok (text, escaped', next)) :
    next.rest.length < (x :: cs).length := by
  unfold scanAtom at h
  split at h
  · contradiction
  · cases h
  · have := scanAtom_shorter h; simp_all; omega
  · simp_all
    have := scanAtom_shorter h; omega

theorem commaLexeme_shorter {c next : Cursor} {l : Lexeme} (hc : 0 < c.rest.length)
    (h : commaLexeme c = (l, next)) : next.rest.length < c.rest.length := by
  unfold commaLexeme at h
  split at h <;> cases h <;> simp [Cursor.drop] <;> omega

theorem stringLexeme_shorter {c next : Cursor} {l : Lexeme}
    (h : stringLexeme c = .ok (l, next)) : next.rest.length < c.rest.length := by
  unfold stringLexeme at h
  split at h <;> cases h
  rename_i hs
  have := scanString_shorter hs
  simp [Cursor.drop] at this
  omega

theorem charLexeme_shorter {c next : Cursor} {l : Lexeme}
    (h : charLexeme c = .ok (l, next)) : next.rest.length < c.rest.length := by
  unfold charLexeme at h
  split at h
  · cases h
  split at h <;> cases h
  rename_i hr
  have := character_shorter hr
  simp [Cursor.drop] at this
  omega

theorem isDelimiter_eq_false {x : Char} (hb : Text.isBlank x = false) (hs : x ≠ ';')
    (hl : singleLexeme? x = none) (hc : x ≠ ',') (hq : x ≠ '"') : isDelimiter x = false := by
  simp [isDelimiter, hb, hs, hl, hc, hq]

theorem lexeme_shorter {tolerant : Bool} {c next : Cursor} {x : Char} {tail : List Char}
    {l : Lexeme} (hc : c.rest = x :: tail) (hx : Text.isBlank x = false ∧ x ≠ ';')
    (h : lexeme tolerant c x = .ok (l, next)) : next.rest.length < c.rest.length := by
  have hp : 0 < c.rest.length := by simp [hc]
  unfold lexeme at h
  split at h
  · cases h; simp [Cursor.drop]; omega
  rename_i hl
  split at h
  · exact commaLexeme_shorter hp (Except.ok.inj h)
  rename_i hcomma
  split at h
  · exact stringLexeme_shorter h
  rename_i hquote
  split at h
  · exact charLexeme_shorter h
  split at h
  · exact hashLexeme_shorter hp h
  unfold atomLexeme at h
  split at h <;> cases h
  rename_i ha
  rw [atomAt, hc] at ha
  rw [hc]
  refine scanAtom_shorter_of_not_delimiter ?_ ha
  exact isDelimiter_eq_false hx.1 hx.2 hl (by simpa using hcomma) (by simpa using hquote)

theorem skipBlanks_head {c next : Cursor} {x : Char} {tail : List Char}
    (h : skipBlanks c = .ok next) (hr : next.rest = x :: tail) :
    Text.isBlank x = false ∧ x ≠ ';' := by
  fun_induction skipBlanks c with
  | case1 c hc => cases h; simp [hc] at hr
  | case2 => cases h; simp [Cursor.drop] at hr
  | case3 => cases h
  | case4 _ _ _ _ _ _ _ ih => exact ih h
  | case5 _ _ _ _ _ _ ih => exact ih h
  | case6 _ _ _ _ _ _ _ ih => exact ih h
  | case7 c y t _ hc hy hs => cases h; simp_all

/-- Reading a token moves on in the text. -/
theorem token?_shorter {tolerant : Bool} {c next : Cursor} {t : Token}
    (h : token? tolerant c = .ok (some (t, next))) : next.rest.length < c.rest.length := by
  simp only [token?] at h
  split at h
  · cases h
  rename_i hs
  split at h
  · cases h
  rename_i hr
  split at h <;> cases h
  rename_i hl
  exact Nat.lt_of_lt_of_le (lexeme_shorter hr (skipBlanks_head hs hr) hl) (skipBlanks_shorter hs)

end PatternLint.Reader
