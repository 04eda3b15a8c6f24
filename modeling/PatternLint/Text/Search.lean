/-! Searching and cutting texts given as lists of characters. -/

namespace PatternLint.Text

/-- The place of the first occurrence of `needle` in characters that start at `pos`. -/
def findFrom (needle : List Char) (pos : Nat) : List Char → Option Nat
  | [] => if needle.isEmpty then some pos else none
  | c :: rest =>
    if needle.isPrefixOf (c :: rest) then some pos else findFrom needle (pos + 1) rest

/-- The number of characters before the first occurrence of `needle`. -/
def find? (needle cs : List Char) : Option Nat :=
  findFrom needle 0 cs

theorem findFrom_some {needle cs : List Char} {pos n : Nat} (h : findFrom needle pos cs = some n) :
    ∃ k, n = pos + k ∧ k ≤ cs.length ∧ needle.isPrefixOf (cs.drop k) = true := by
  induction cs generalizing pos with
  | nil =>
    simp [findFrom] at h
    exact ⟨0, by simp [h.2], by simp, by simp [h.1]⟩
  | cons c rest ih =>
    unfold findFrom at h
    split at h
    · cases h
      exact ⟨0, rfl, by simp, by assumption⟩
    · obtain ⟨k, hn, hk, hp⟩ := ih h
      exact ⟨k + 1, by omega, by simpa, by simpa using hp⟩

theorem find?_some {needle cs : List Char} {n : Nat} (h : find? needle cs = some n) :
    n ≤ cs.length ∧ needle.isPrefixOf (cs.drop n) = true := by
  obtain ⟨k, hn, hk, hp⟩ := findFrom_some h
  obtain rfl : n = k := by omega
  exact ⟨hk, hp⟩

def contains (needle cs : List Char) : Bool :=
  (find? needle cs).isSome

/-- The pieces between the occurrences of a separator that is not empty, from left to right, behind
the pieces already found; `skip` characters of an occurrence are still to be passed. -/
def splitFrom (sep : List Char) (skip : Nat) (pieces : List (List Char)) (piece : List Char) :
    List Char → List (List Char)
  | [] => (piece.reverse :: pieces).reverse
  | c :: rest =>
    match skip with
    | k + 1 => splitFrom sep k pieces piece rest
    | 0 =>
      if sep.isPrefixOf (c :: rest) then
        splitFrom sep (sep.length - 1) (piece.reverse :: pieces) [] rest
      else splitFrom sep 0 pieces (c :: piece) rest

def split (sep cs : List Char) : List (List Char) :=
  splitFrom sep 0 [] [] cs

/-- The pieces joined again, with `sep` between neighbours. -/
def join (sep : List Char) (pieces : List (List Char)) : List Char :=
  sep.intercalate pieces

def replace (sep new cs : List Char) : List Char :=
  join new (split sep cs)

/-- The maximal runs of characters outside `isSep`. -/
def words (isSep : Char → Bool) (cs : List Char) : List (List Char) :=
  (cs.splitBy fun a b => isSep a == isSep b).filter fun run => !(run.head?.any isSep)

def trimLeft (drop : Char → Bool) (cs : List Char) : List Char :=
  cs.dropWhile drop

def trimRight (drop : Char → Bool) (cs : List Char) : List Char :=
  (cs.reverse.dropWhile drop).reverse

def trim (drop : Char → Bool) (cs : List Char) : List Char :=
  trimRight drop (trimLeft drop cs)

def endsWith (suffix cs : List Char) : Bool :=
  suffix.reverse.isPrefixOf cs.reverse

end PatternLint.Text
