import PatternLint.Proofs.Canonical
import PatternLint.Proofs.NearestDoubles
import PatternLint.Value.Equal

/-! Equality of data against likeness by structure. The comparison finds all that is alike to be
equal, and tells the rest apart but for numbers inside vectors, where an integer passes for a float
of the same value. -/

namespace PatternLint.Value

/-- Data of one shape with the same atoms. Closures are alike to themselves only. -/
inductive Alike : Value → Value → Prop
  | nil : Alike nil nil
  | str {text : String} : Alike (str text) (str text)
  | int {n : Int} : Alike (int n) (int n)
  | float {x y : Float} (h : sameFloat x y = true) : Alike (float x) (float y)
  | sym {name : String} : Alike (sym name) (sym name)
  | list {xs ys : List Value} (h : List.Forall₂ Alike xs ys) : Alike (list xs) (list ys)
  | dotted {xs ys : List Value} {s t : Value} (h : List.Forall₂ Alike xs ys) (ht : Alike s t) :
      Alike (dotted xs s) (dotted ys t)
  | vec {xs ys : List Value} (h : List.Forall₂ Alike xs ys) : Alike (vec xs) (vec ys)
  | closure {f g : Value} {bs cs : List Value} {i j : Option FrameId} {serial : Nat} :
      Alike (closure f bs i serial) (closure g cs j serial)
  | unknown : Alike unknown unknown

/-- At a place inside vectors that the two values have in common, one of them has an integer and the
other a float of the same value. The flag says that the values stand inside a vector themselves. -/
inductive Blurred : Bool → Value → Value → Prop
  | intFloat {n : Int} {x : Float} (h : intIsFloat n x = true) : Blurred true (int n) (float x)
  | floatInt {n : Int} {x : Float} (h : intIsFloat n x = true) : Blurred true (float x) (int n)
  | list {inside : Bool} {xs ys : List Value} {x y : Value} (hp : (x, y) ∈ xs.zip ys)
      (h : Blurred inside x y) : Blurred inside (list xs) (list ys)
  | dotted {inside : Bool} {xs ys : List Value} {s t x y : Value} (hp : (x, y) ∈ xs.zip ys)
      (h : Blurred inside x y) : Blurred inside (dotted xs s) (dotted ys t)
  | tail {inside : Bool} {xs ys : List Value} {s t : Value} (h : Blurred inside s t) :
      Blurred inside (dotted xs s) (dotted ys t)
  | vec {inside : Bool} {xs ys : List Value} {x y : Value} (hp : (x, y) ∈ xs.zip ys)
      (h : Blurred true x y) : Blurred inside (vec xs) (vec ys)

mutual
/-- How many data a comparison of the value with itself meets. A vector counts as one. -/
def visits : Value → Nat
  | list items => visitsAll items + 1
  | dotted items tail => visitsAll items + visits tail + 2
  | _ => 1
def visitsAll : List Value → Nat
  | [] => 0
  | v :: rest => visits v + visitsAll rest
end

/-- The end of a dotted list is visited apart from its items. -/
theorem visits_dotted (items : List Value) (tail : Value) :
    visits (dotted items tail) = visitsAll items + visits tail + 2 := rfl

theorem visitsAll_cons (v : Value) (rest : List Value) :
    visitsAll (v :: rest) = visits v + visitsAll rest := rfl

variable {inside r r' : Bool} {a b s t x y : Value} {xs ys : List Value}

/-- An answer that is right unless numbers inside vectors are mistaken for each other. -/
structure Verdict (inside : Bool) (a b : Value) (r : Bool) : Prop where
  of_alike : Alike a b → r = true
  sound : r = true → Alike a b ∨ Blurred inside a b

structure VerdictAll (inside : Bool) (xs ys : List Value) (r : Bool) : Prop where
  of_alike : List.Forall₂ Alike xs ys → r = true
  sound : r = true → List.Forall₂ Alike xs ys ∨ ∃ x y, (x, y) ∈ xs.zip ys ∧ Blurred inside x y

/-- A negative answer is right if the values differ in structure. -/
theorem Verdict.no (h : ¬ Alike a b) : Verdict inside a b false :=
  ⟨fun hab => absurd hab h, nofun⟩

theorem Verdict.of_iff (h : r = true ↔ Alike a b) : Verdict inside a b r :=
  ⟨h.2, fun hr => .inl (h.1 hr)⟩

namespace VerdictAll

theorem no (h : xs.length ≠ ys.length) : VerdictAll inside xs ys false :=
  ⟨fun hall => absurd hall.length_eq h, nofun⟩

theorem nil : VerdictAll inside [] [] true :=
  ⟨fun _ => rfl, fun _ => .inl .nil⟩

/-- Verdicts on the first items and on the rest are combined. -/
theorem cons (h : Verdict inside x y r) (hs : VerdictAll inside xs ys r') :
    VerdictAll inside (x :: xs) (y :: ys) (r && r') := by
  constructor
  · rintro (_ | ⟨hxy, hall⟩)
    rw [h.of_alike hxy, hs.of_alike hall]
    rfl
  · intro hr
    obtain ⟨hr, hr'⟩ := (Bool.and_eq_true _ _).mp hr
    rcases h.sound hr with hxy | hblur
    · rcases hs.sound hr' with hall | ⟨u, v, hp, hblur⟩
      · exact .inl (.cons hxy hall)
      · exact .inr ⟨u, v, List.mem_cons_of_mem _ hp, hblur⟩
    · exact .inr ⟨x, y, List.mem_cons_self, hblur⟩

theorem list (h : VerdictAll inside xs ys r) : Verdict inside (list xs) (list ys) r := by
  refine ⟨fun hab => ?_, fun hr => ?_⟩
  · cases hab
    exact h.of_alike ‹_›
  · exact (h.sound hr).imp .list fun ⟨_, _, hp, hblur⟩ => .list hp hblur

theorem vec (h : VerdictAll true xs ys r) : Verdict inside (vec xs) (vec ys) r := by
  refine ⟨fun hab => ?_, fun hr => ?_⟩
  · cases hab
    exact h.of_alike ‹_›
  · exact (h.sound hr).imp .vec fun ⟨_, _, hp, hblur⟩ => .vec hp hblur

/-- Both the items and the ends have to be equal. -/
theorem dotted (h : VerdictAll inside xs ys r) (ht : Verdict inside s t r') :
    Verdict inside (dotted xs s) (dotted ys t) (r && r') := by
  constructor
  · rintro (_ | _)
    rw [h.of_alike ‹_›, ht.of_alike ‹_›]
    rfl
  · intro hr
    obtain ⟨hr, hr'⟩ := (Bool.and_eq_true _ _).mp hr
    rcases h.sound hr with hall | ⟨_, _, hp, hblur⟩
    · exact (ht.sound hr').imp (.dotted hall) .tail
    · exact .inr (.dotted hp hblur)

end VerdictAll

/-! ### Plain equality, inside vectors -/

/-- Lists are alike item by item. -/
@[simp] theorem alike_list : Alike (list xs) (list ys) ↔ List.Forall₂ Alike xs ys :=
  ⟨fun h => by cases h; assumption, .list⟩

@[simp] theorem alike_dotted :
    Alike (dotted xs s) (dotted ys t) ↔ List.Forall₂ Alike xs ys ∧ Alike s t :=
  ⟨fun h => by cases h; exact ⟨‹_›, ‹_›⟩, fun h => .dotted h.1 h.2⟩

/-- The comparison of `a` with `b` gives `r` within any budget that allows for a walk through one of
the two, and takes the same from each such budget. -/
def Answers (a b : Value) (r : Bool) : Prop :=
  ∃ n, n ≤ visits a ∧ n ≤ visits b ∧ ∀ left, equalWithin a b (n + left) = .ok (r, left)

def AnswersAll (xs ys : List Value) (r : Bool) : Prop :=
  ∃ n, n ≤ visitsAll xs ∧ n ≤ visitsAll ys ∧
    ∀ left, equalAllWithin xs ys (n + left) = .ok (r, left)

/-- Lists of different lengths are told apart before any item. -/
theorem equalWithin_list (xs ys : List Value) (left : Nat) :
    equalWithin (list xs) (list ys) (left + 1) =
      if xs.length == ys.length then equalAllWithin xs ys left else .ok (false, left) := rfl

theorem equalWithin_dotted (xs ys : List Value) (s t : Value) (left : Nat) :
    equalWithin (dotted xs s) (dotted ys t) (left + 2) =
      (if xs.length == ys.length then equalAllWithin xs ys left else .ok (false, left)) >>=
        fun (ok, left) => if ok then equalWithin s t left else .ok (false, left) := by
  change (if xs.length == ys.length then _ else _) = _
  split <;> rfl

theorem AnswersAll.cons (h : Answers x y r) (hs : AnswersAll xs ys r') :
    AnswersAll (x :: xs) (y :: ys) (r && r') := by
  obtain ⟨n, hx, hy, hrun⟩ := h
  obtain ⟨m, hxs, hys, hruns⟩ := hs
  cases r with
  | false =>
    refine ⟨n, by rw [visitsAll_cons]; omega, by rw [visitsAll_cons]; omega, fun left => ?_⟩
    simp only [equalAllWithin, hrun, bind, Except.bind]
    rfl
  | true =>
    refine ⟨n + m, by rw [visitsAll_cons]; omega, by rw [visitsAll_cons]; omega, fun left => ?_⟩
    simp only [equalAllWithin, Nat.add_assoc, hrun, bind, Except.bind]
    exact hruns left

/-- What the items need, and one visit for the list. -/
theorem AnswersAll.list (hlen : xs.length = ys.length) (h : AnswersAll xs ys r) :
    Answers (list xs) (list ys) r := by
  obtain ⟨n, hxs, hys, hruns⟩ := h
  refine ⟨n + 1, Nat.succ_le_succ hxs, Nat.succ_le_succ hys, fun left => ?_⟩
  rw [Nat.add_right_comm, equalWithin_list, if_pos (beq_iff_eq.2 hlen), hruns]

theorem AnswersAll.dotted (hlen : xs.length = ys.length) (h : AnswersAll xs ys r)
    (ht : Answers s t r') : Answers (dotted xs s) (dotted ys t) (r && r') := by
  obtain ⟨n, hxs, hys, hruns⟩ := h
  obtain ⟨m, hs, ht, hrun⟩ := ht
  cases r with
  | false =>
    refine ⟨n + 2, by rw [visits_dotted]; omega, by rw [visits_dotted]; omega, fun left => ?_⟩
    rw [Nat.add_right_comm, equalWithin_dotted, if_pos (beq_iff_eq.2 hlen), hruns]
    rfl
  | true =>
    refine ⟨n + m + 2, by rw [visits_dotted]; omega, by rw [visits_dotted]; omega, fun left => ?_⟩
    rw [Nat.add_right_comm, Nat.add_assoc n, equalWithin_dotted, if_pos (beq_iff_eq.2 hlen), hruns,
      Bool.true_and]
    exact hrun left

end PatternLint.Value
