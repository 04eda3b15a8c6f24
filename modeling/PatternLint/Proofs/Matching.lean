import PatternLint.Evaluation.LambdaList
import PatternLint.Primitive.Sequence
import Mathlib.Data.List.Forall2

/-! Values of two evaluations that differ at most in the labels of their closures. -/

namespace PatternLint

/-- Which frames, and which serial numbers of closures, stand for each other. -/
structure Labels where
  frames : FrameId → FrameId → Prop
  serials : Nat → Nat → Prop

/-- What stands for each other, seen from the other side. -/
def Labels.swap (c : Labels) : Labels :=
  ⟨fun i j => c.frames j i, fun i j => c.serials j i⟩

inductive Matches (c : Labels) : Value → Value → Prop
  | nil : Matches c .nil .nil
  | str (text : String) : Matches c (.str text) (.str text)
  | int (n : Int) : Matches c (.int n) (.int n)
  | float (x : Float) : Matches c (.float x) (.float x)
  | sym (name : String) : Matches c (.sym name) (.sym name)
  | list {xs ys : List Value} (h : List.Forall₂ (Matches c) xs ys) :
      Matches c (.list xs) (.list ys)
  | dotted {xs ys : List Value} {x y : Value} (h : List.Forall₂ (Matches c) xs ys)
      (ht : Matches c x y) : Matches c (.dotted xs x) (.dotted ys y)
  | vec {xs ys : List Value} (h : List.Forall₂ (Matches c) xs ys) : Matches c (.vec xs) (.vec ys)
  | closure {formals formals' : Value} {body body' : List Value} {frame frame' : Option FrameId}
      {i j : Nat} (hf : Matches c formals formals') (hb : List.Forall₂ (Matches c) body body')
      (hi : Option.Rel c.frames frame frame') (hs : c.serials i j) :
      Matches c (.closure formals body frame i) (.closure formals' body' frame' j)
  | unknown : Matches c .unknown .unknown

abbrev MatchesAll (c : Labels) : List Value → List Value → Prop :=
  List.Forall₂ (Matches c)

/-- A value that may be known on one side only, where that is tolerated. -/
def Loose (tolerant : Prop) (c : Labels) (v v' : Value) : Prop :=
  Matches c v v' ∨ (tolerant ∧ (v = .unknown ∨ v' = .unknown))

variable {c d : Labels} {v v' x y : Value} {xs ys zs ws : List Value} {tolerant : Prop}

namespace Matches

/-- Induction on matching values and on their lists of parts together. -/
@[elab_as_elim]
theorem induction_on {motive : Value → Value → Prop} (h : Matches c v v') (nil : motive .nil .nil)
    (str : ∀ t, motive (.str t) (.str t)) (int : ∀ n, motive (.int n) (.int n))
    (float : ∀ x, motive (.float x) (.float x)) (sym : ∀ n, motive (.sym n) (.sym n))
    (list : ∀ {xs ys}, MatchesAll c xs ys → List.Forall₂ motive xs ys →
      motive (.list xs) (.list ys))
    (dotted : ∀ {xs ys x y}, MatchesAll c xs ys → List.Forall₂ motive xs ys → Matches c x y →
      motive x y → motive (.dotted xs x) (.dotted ys y))
    (vec : ∀ {xs ys}, MatchesAll c xs ys → List.Forall₂ motive xs ys → motive (.vec xs) (.vec ys))
    (closure : ∀ {f f' b b' i j k l}, Matches c f f' → motive f f' → MatchesAll c b b' →
      List.Forall₂ motive b b' → Option.Rel c.frames i j → c.serials k l →
      motive (.closure f b i k) (.closure f' b' j l))
    (unknown : motive .unknown .unknown) : motive v v' :=
  Matches.rec (motive_1 := fun v v' _ => motive v v')
    (motive_2 := fun xs ys _ => List.Forall₂ motive xs ys) nil str int float sym
    (fun h ih => list h ih) (fun h ht ih iht => dotted h ih ht iht) (fun h ih => vec h ih)
    (fun hf hb hi hs ihf ihb => closure hf ihf hb ihb hi hs) unknown .nil
    (fun _ _ ih ihs => .cons ih ihs) h

/-- More labels may stand for each other than are needed. -/
theorem mono (hf : ∀ i j, c.frames i j → d.frames i j) (hs : ∀ i j, c.serials i j → d.serials i j)
    (h : Matches c v v') : Matches d v v' := by
  refine h.induction_on .nil .str .int .float .sym ?list ?dotted ?vec ?closure .unknown
  case list => exact fun _ ih => .list ih
  case dotted => exact fun _ ih _ iht => .dotted ih iht
  case vec => exact fun _ ih => .vec ih
  case closure =>
    intro f f' b b' i j k l _ ihf _ ihb hi hk
    refine .closure ihf ihb ?_ (hs _ _ hk)
    cases hi with
    | none => exact .none
    | some hi => exact .some (hf _ _ hi)

/-- Values are the same if labels stand for themselves only. -/
theorem eq (hf : ∀ i j, c.frames i j → i = j) (hs : ∀ i j, c.serials i j → i = j)
    (h : Matches c v v') : v = v' := by
  refine h.induction_on rfl (fun _ => rfl) (fun _ => rfl) (fun _ => rfl) (fun _ => rfl)
    ?list ?dotted ?vec ?closure rfl
  case list =>
    intro xs ys _ ih
    rw [List.forall₂_eq_eq_eq] at ih
    rw [ih]
  case dotted =>
    intro xs ys x y _ ih _ iht
    rw [List.forall₂_eq_eq_eq] at ih
    rw [ih, iht]
  case vec =>
    intro xs ys _ ih
    rw [List.forall₂_eq_eq_eq] at ih
    rw [ih]
  case closure =>
    intro f f' b b' i j k l _ ihf _ ihb hi hk
    rw [List.forall₂_eq_eq_eq] at ihb
    rw [ihf, ihb, hs _ _ hk]
    cases hi with
    | none => rfl
    | some hi => rw [hf _ _ hi]

/-- A value matches itself if every label stands for itself. -/
theorem refl_of (hf : ∀ i, c.frames i i) (hs : ∀ i, c.serials i i) (v : Value) : Matches c v v := by
  refine Value.rec (motive_1 := fun v => Matches c v v)
    (motive_2 := fun vs => List.Forall₂ (Matches c) vs vs) .nil .str .int .float .sym
    (fun _ ih => .list ih) (fun _ _ ih iht => .dotted ih iht) (fun _ ih => .vec ih) ?_ .unknown
    .nil (fun _ _ ih ihs => .cons ih ihs) v
  intro f b frame i ihf ihb
  refine .closure ihf ihb ?_ (hs i)
  cases frame with
  | none => exact .none
  | some j => exact .some (hf j)

/-- Matching read from the other side. -/
theorem swap (h : Matches c v v') : Matches c.swap v' v := by
  refine h.induction_on .nil .str .int .float .sym ?list ?dotted ?vec ?closure .unknown
  case list => exact fun _ ih => .list ih.flip
  case dotted => exact fun _ ih _ iht => .dotted ih.flip iht
  case vec => exact fun _ ih => .vec ih.flip
  case closure =>
    intro f f' b b' i j k l _ ihf _ ihb hi hk
    refine .closure ihf ihb.flip ?_ hk
    cases hi with
    | none => exact .none
    | some hi => exact .some hi

/-- Values that match are unknown together. -/
theorem isUnknown_eq (h : Matches c v v') : v.isUnknown = v'.isUnknown := by
  cases h <;> rfl

/-- Both the empty list and `nil` count, so that a list is told apart by its length. -/
theorem isNil_eq (h : Matches c v v') : v.isNil = v'.isNil := by
  cases h with
  | list h => cases h <;> rfl
  | _ => rfl

theorem isCons_eq (h : Matches c v v') : v.isCons = v'.isCons := by
  cases h with
  | list h => cases h <;> rfl
  | _ => rfl

theorem ofBool (b : Bool) : Matches c (.ofBool b) (.ofBool b) := by
  cases b <;> constructor

theorem ofList (h : MatchesAll c xs ys) : Matches c (.ofList xs) (.ofList ys) := by
  cases h with
  | nil => exact .nil
  | cons h hs => exact .list (.cons h hs)

end Matches

theorem MatchesAll.append (h : MatchesAll c xs ys) (h' : MatchesAll c zs ws) :
    MatchesAll c (xs ++ zs) (ys ++ ws) :=
  List.rel_append h h'

/-- An item on one side has its counterpart at the same index. -/
theorem MatchesAll.getElem? (h : MatchesAll c xs ys) (i : Nat) :
    Option.Rel (Matches c) xs[i]? ys[i]? := by
  induction h generalizing i with
  | nil => exact .none
  | cons h _ ih =>
    cases i with
    | zero => exact .some h
    | succ i => exact ih i

/-- Putting items in front joins them with a list and makes a dotted one of an atom. -/
theorem Matches.prepend (h : MatchesAll c xs ys) (ht : Matches c x y) :
    Matches c (Value.prepend xs x) (Value.prepend ys y) := by
  have hempty : xs.isEmpty = ys.isEmpty := by cases h <;> rfl
  cases ht with
  | nil => exact .ofList h
  | list hl => exact .ofList (h.append hl)
  | dotted hl ht =>
    simp only [Value.prepend, ht.isNil_eq]
    split
    · exact .ofList (h.append hl)
    · exact .dotted (h.append hl) ht
  | _ =>
    simp only [Value.prepend, hempty]
    split
    · constructor <;> assumption
    · exact .dotted h (by constructor <;> assumption)

theorem MatchesAll.dropLast (h : MatchesAll c xs ys) : MatchesAll c xs.dropLast ys.dropLast := by
  rw [List.dropLast_eq_take, List.dropLast_eq_take, List.Forall₂.length_eq h]
  exact List.forall₂_take _ h

/-- The last items match, and the defaults do where there is none. -/
theorem MatchesAll.getLastD (h : MatchesAll c xs ys) (hd : Matches c x y) :
    Matches c (xs.getLastD x) (ys.getLastD y) := by
  induction h generalizing x y with
  | nil => exact hd
  | cons h _ ih =>
    rw [List.getLastD_cons, List.getLastD_cons]
    exact ih h

theorem MatchesAll.intersperse (h : MatchesAll c xs ys) (hs : Matches c x y) :
    MatchesAll c (xs.intersperse x) (ys.intersperse y) := by
  induction h with
  | nil => exact .nil
  | cons h ht ih =>
    cases ht with
    | nil => exact .cons h .nil
    | cons h' ht => exact .cons h (.cons hs ih)

/-- A test that does not look at labels gives the same answer on both sides. -/
theorem MatchesAll.any_eq {p : Value → Bool} (hp : ∀ v v', Matches c v v' → p v = p v')
    (h : MatchesAll c xs ys) : xs.any p = ys.any p := by
  induction h with
  | nil => rfl
  | cons h _ ih => simp only [List.any_cons, hp _ _ h, ih]

theorem Matches.getD {o o' : Option Value} (ho : Option.Rel (Matches c) o o') (h : Matches c x y) :
    Matches c (o.getD x) (o'.getD y) := by
  cases ho with
  | none => exact h
  | some ho => exact ho

theorem allDisplayable_eq
    (h : List.Forall₂ (fun v v' => v.isDisplayable = v'.isDisplayable) xs ys) :
    Value.allDisplayable xs = Value.allDisplayable ys := by
  induction h with
  | nil => rfl
  | cons h _ ih => simp only [Value.allDisplayable, h, ih]

/-- Whether a value can be shown depends on its numbers, not on its labels. -/
theorem Matches.isDisplayable_eq (h : Matches c v v') : v.isDisplayable = v'.isDisplayable := by
  refine h.induction_on rfl (fun _ => rfl) (fun _ => rfl) (fun _ => rfl) (fun _ => rfl)
    ?list ?dotted ?vec ?closure rfl
  case list => exact fun _ ih => allDisplayable_eq ih
  case dotted =>
    intro xs ys x y _ ih _ iht
    simp only [Value.isDisplayable, allDisplayable_eq ih, iht]
  case vec => exact fun _ ih => allDisplayable_eq ih
  case closure =>
    intro f f' b b' i j k l hf ihf _ ihb _ _
    have hb := allDisplayable_eq ihb
    cases hf <;> simp_all [Value.isDisplayable]

/-- How an evaluation deals with a fault. -/
inductive Handling where
  | signal
  | rx
  | depth
  | contained
  | escaping
  deriving DecidableEq

namespace Fault

def handling : Fault → Handling
  | .signal _ => .signal
  | .rx _ => .rx
  | .tooDeep => .depth
  | .emptyDigitClass => .escaping
  | _ => .contained

variable {f : Fault}

/-- A call contains what is neither a fault of writing regexps nor an escaping one. -/
theorem isContained_iff : f.isContained = true ↔ f.handling ≠ .rx ∧ f.handling ≠ .escaping := by
  cases f <;> simp [isContained, handling]

/-- A complaint about matching values is dealt with in the same way, though it may show other
labels. -/
theorem handling_about (h : Matches c v v') (s s' : Signal) :
    (about v s).handling = (about v' s').handling := by
  simp only [about, h.isDisplayable_eq]
  split <;> rfl

theorem handling_wrongType (h : Matches c v v') (expected : String) :
    (wrongType expected v).handling = (wrongType expected v').handling :=
  handling_about h _ _

end Fault

section Unique

variable {v'' : Value} {vs vs' vs'' : List Value}

/-- Labels of which each stands for the same in both. -/
structure Labels.Coherent (c d : Labels) : Prop where
  frames : ∀ ⦃i j k⦄, c.frames i j → d.frames i k → j = k
  serials : ∀ ⦃i j k⦄, c.serials i j → d.serials i k → j = k

/-- Lists are determined item by item. -/
theorem unique_all (h : List.Forall₂ (fun v v' => ∀ v'', Matches d v v'' → v' = v'') vs vs')
    (h' : MatchesAll d vs vs'') : vs' = vs'' := by
  induction h generalizing vs'' with
  | nil => cases h'; rfl
  | cons hv _ ih =>
    cases h' with
    | cons hv' hvs' => rw [hv _ hv', ih hvs']

theorem rel_unique {α : Type} {R Q : α → α → Prop} (hRQ : ∀ a b b', R a b → Q a b' → b = b')
    {o o' o'' : Option α} (h : Option.Rel R o o') (h' : Option.Rel Q o o'') : o' = o'' := by
  cases h with
  | none => cases h'; rfl
  | some h =>
    cases h' with
    | some h' => rw [hRQ _ _ _ h h']

/-- A value has one counterpart at most, under labels that agree with each other. -/
theorem Matches.unique (hcd : c.Coherent d) (h : Matches c v v') :
    ∀ v'', Matches d v v'' → v' = v'' := by
  refine h.induction_on ?nil ?str ?int ?float ?sym ?list ?dotted ?vec ?closure ?unknown
  case list =>
    rintro vs vs' _ ih _ ⟨⟩
    rename_i h'
    rw [unique_all ih h']
  case dotted =>
    rintro vs vs' x x' _ ih _ iht _ ⟨⟩
    rename_i h' ht'
    rw [unique_all ih h', iht _ ht']
  case vec =>
    rintro vs vs' _ ih _ ⟨⟩
    rename_i h'
    rw [unique_all ih h']
  case closure =>
    rintro f f' b b' i j k l _ ihf _ ihb hi hk _ ⟨⟩
    rename_i hf' hb' hi' hk'
    rw [ihf _ hf', unique_all ihb hb', rel_unique hcd.frames hi hi', hcd.serials hk hk']
  all_goals
    intros
    rename_i h'
    cases h'
    rfl

/-- Where nothing is tolerated, loose values match. -/
theorem Loose.matches (h : Loose False c v v') : Matches c v v' :=
  h.resolve_right And.left

end Unique

/-- Both results are faults of one kind, or both are values that are related. -/
inductive Agrees {α : Type} (A : α → α → Prop) : Except Fault α → Except Fault α → Prop
  | ok {a b : α} (h : A a b) : Agrees A (.ok a) (.ok b)
  | error {f g : Fault} (h : f.handling = g.handling) : Agrees A (.error f) (.error g)

/-- Agreement in a wider relation. -/
theorem Agrees.mono {α : Type} {P Q : α → α → Prop} (h : ∀ a a', P a a' → Q a a')
    {r r' : Except Fault α} (hr : Agrees P r r') : Agrees Q r r' := by
  cases hr with
  | ok hab => exact .ok (h _ _ hab)
  | error hfg => exact .error hfg

def Primitive.Respects (c : Labels) (f : Primitive) : Prop :=
  ∀ args args', MatchesAll c args args' → Agrees (Matches c) (f args) (f args')

/-- Both values are lists with matching items, or neither is one. -/
theorem Matches.asList (h : Matches c v v') : Agrees (MatchesAll c) v.asList v'.asList := by
  cases h with
  | nil => exact .ok .nil
  | list h => exact .ok h
  | _ => exact .error (Fault.handling_wrongType (c := c) (by constructor <;> assumption) _)

theorem Matches.asSequence (h : Matches c v v') :
    Agrees (MatchesAll c) v.asSequence v'.asSequence := by
  cases h with
  | str text =>
    refine .ok (List.forall₂_same.mpr fun v hv => ?_)
    obtain ⟨n, -, rfl⟩ := List.mem_map.1 hv
    exact .int _
  | vec h => exact .ok h
  | nil => exact .ok .nil
  | list h => exact .ok h
  | _ => exact .error (Fault.handling_wrongType (c := c) (by constructor <;> assumption) _)

/-- Matching lists have one length, so that both are built or both are too long. -/
theorem Matches.ofItems (h : MatchesAll c xs ys) :
    Agrees (Matches c) (Value.ofItems xs) (Value.ofItems ys) := by
  simp only [Value.ofItems, List.Forall₂.length_eq h]
  split
  · exact .error rfl
  · exact .ok (.ofList h)

theorem Matches.car (h : Matches c v v') :
    Agrees (Matches c) (Primitive.car v) (Primitive.car v') := by
  cases h with
  | nil => exact .ok .nil
  | list h =>
    cases h with
    | nil => exact .ok .nil
    | cons h _ => exact .ok h
  | dotted h ht =>
    cases h with
    | nil => exact .error (Fault.handling_wrongType (c := c) (.dotted .nil ht) _)
    | cons h _ => exact .ok h
  | _ => exact .error (Fault.handling_wrongType (c := c) (by constructor <;> assumption) _)

/-- The rests match and are built within the bound on both sides. -/
theorem Matches.cdr (h : Matches c v v') :
    Agrees (Matches c) (Primitive.cdr v) (Primitive.cdr v') := by
  cases h with
  | nil => exact .ok .nil
  | list h =>
    cases h with
    | nil => exact .ok .nil
    | cons _ hr => exact Matches.ofItems hr
  | dotted h ht =>
    cases h with
    | nil => exact .error (Fault.handling_wrongType (c := c) (.dotted .nil ht) _)
    | cons h hr =>
      cases hr with
      | nil => exact .ok ht
      | cons h' hr => exact .ok (.dotted (.cons h' hr) ht)
  | _ => exact .error (Fault.handling_wrongType (c := c) (by constructor <;> assumption) _)

end PatternLint
