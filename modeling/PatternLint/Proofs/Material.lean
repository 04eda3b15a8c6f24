import PatternLint.Evaluation.Eval
import PatternLint.Evaluation.Scope
import PatternLint.Primitive.Basic
import PatternLint.Proofs.Endings

/-! What values are made of. A material says which parts may occur in a value at any depth, and what
shape its lists have to be of. -/

namespace PatternLint

/-- `runs` says that values may be run as code. It takes closures for that, or one of
the two symbols that have a value of their argument evaluated. `proper` asks for lists
of the canonical shape. -/
structure Material where
  symbol : String → Prop
  unknown : Prop
  runs : Prop
  proper : Prop
  symbol_t : symbol "t"
  runs_lambda : symbol "lambda" → runs
  runs_rxToString : symbol "rx-to-string" → runs

namespace Value

/-- What a list may end in, other than `nil`. -/
def IsTail : Value → Prop
  | nil | list _ | dotted .. => False
  | _ => True

/-- The code of a closure belongs to it, the variables that it sees do not. -/
inductive MadeOf (m : Material) : Value → Prop where
  | nil : MadeOf m nil
  | str {text : String} : MadeOf m (str text)
  | int {n : Int} : MadeOf m (int n)
  | float {x : Float} : MadeOf m (float x)
  | sym {name : String} (h : m.symbol name) : MadeOf m (sym name)
  | list {items : List Value} (h : ∀ v ∈ items, MadeOf m v) (hp : m.proper → items ≠ []) :
      MadeOf m (list items)
  | dotted {items : List Value} {tail : Value} (h : ∀ v ∈ items, MadeOf m v) (ht : MadeOf m tail)
      (hp : m.proper → items ≠ [] ∧ tail.IsTail) : MadeOf m (dotted items tail)
  | vec {items : List Value} (h : ∀ v ∈ items, MadeOf m v) : MadeOf m (vec items)
  | closure {formals : Value} {body : List Value} {frame : Option FrameId} {serial : Nat}
      (hr : m.runs) (hf : MadeOf m formals) (hb : ∀ v ∈ body, MadeOf m v) :
      MadeOf m (closure formals body frame serial)
  | unknown (h : m.unknown) : MadeOf m unknown

/-- The value of a variable may also be unknown as a whole. -/
def Tracked (m : Material) (v : Value) : Prop :=
  v = .unknown ∨ v.MadeOf m

end Value

/-- A result, if there is one, has `A`. -/
def Returns {ε α : Type} (A : α → Prop) (r : Except ε α) : Prop :=
  ∀ a, r = .ok a → A a

variable {m : Material} {v x : Value} {items more : List Value}

namespace Returns

variable {α β ε : Type} {A A' : α → Prop} {B : β → Prop} {r : Except ε α} {k : α → Except ε β}

theorem ok {a : α} (h : A a) : Returns A (.ok a : Except ε α) := by
  rintro _ ⟨⟩
  exact h

theorem ret {a : α} (h : A a) : Returns A (pure a : Except ε α) :=
  ok h

theorem error {f : ε} : Returns A (.error f : Except ε α) :=
  nofun

theorem mono (h : Returns A r) (hA : ∀ a, A a → A' a) : Returns A' r :=
  fun a ha => hA a (h a ha)

/-- What is known of the first result is used for the second. -/
theorem bind (h : Returns A r) (hk : ∀ a, A a → Returns B (k a)) : Returns B (r >>= k) := by
  cases r with
  | ok a => exact hk a (h a rfl)
  | error f => exact error

/-- What follows any result. -/
theorem after (hk : ∀ a, Returns B (k a)) : Returns B (r >>= k) := by
  cases r with
  | ok a => exact hk a
  | error f => exact error

theorem ite {p : Prop} [Decidable p] {r' : Except ε α} (h : p → Returns A r)
    (h' : ¬p → Returns A r') : Returns A (if p then r else r') := by
  by_cases hp : p
  · rw [if_pos hp]
    exact h hp
  · rw [if_neg hp]
    exact h' hp

theorem map {f : α → β} (h : Returns A r) (hf : ∀ a, A a → B (f a)) : Returns B (r.map f) := by
  cases r with
  | ok a => exact ok (hf a (h a rfl))
  | error f => exact error

/-- What is done to every item of a list, for items of one kind. -/
theorem mapM {γ : Type} {C : γ → Prop} {g : γ → Except ε α} {xs : List γ}
    (h : ∀ x ∈ xs, C x) (hg : ∀ x, C x → Returns A (g x)) :
    Returns (fun as => ∀ a ∈ as, A a) (xs.mapM g) := by
  induction xs with
  | nil => exact ok (List.forall_mem_nil _)
  | cons x xs ih =>
    rw [List.mapM_cons]
    refine (hg x (h x List.mem_cons_self)).bind fun a ha => ?_
    refine (ih fun y hy => h y (List.mem_cons_of_mem _ hy)).bind fun as has => ?_
    exact ret (List.forall_mem_cons.2 ⟨ha, has⟩)

end Returns

namespace Value

/-- An integer that is not too wide is taken as it is. -/
theorem ofInt_ok {n : Int} (h : ofInt n = .ok v) : v = .int n := by
  unfold ofInt at h
  split at h
  · exact nomatch h
  · exact (Except.ok.inj h).symm

section Parts

variable {name : String} {tail formals : Value} {body : List Value} {frame : Option FrameId}
  {serial : Nat}

@[simp] theorem madeOf_sym : (sym name).MadeOf m ↔ m.symbol name :=
  ⟨fun h => by cases h; assumption, .sym⟩

/-- A list is made of what its items are made of; where lists are to be proper, it is not empty. -/
@[simp] theorem madeOf_list :
    (list items).MadeOf m ↔ (∀ v ∈ items, v.MadeOf m) ∧ (m.proper → items ≠ []) :=
  ⟨fun h => by cases h; exact ⟨‹_›, ‹_›⟩, fun h => .list h.1 h.2⟩

@[simp] theorem madeOf_dotted : (dotted items tail).MadeOf m ↔
    (∀ v ∈ items, v.MadeOf m) ∧ tail.MadeOf m ∧ (m.proper → items ≠ [] ∧ tail.IsTail) :=
  ⟨fun h => by cases h; exact ⟨‹_›, ‹_›, ‹_›⟩, fun h => .dotted h.1 h.2.1 h.2.2⟩

@[simp] theorem madeOf_vec : (vec items).MadeOf m ↔ ∀ v ∈ items, v.MadeOf m :=
  ⟨fun h => by cases h; assumption, .vec⟩

/-- A closure is made of its code, in a material that runs code. -/
@[simp] theorem madeOf_closure : (closure formals body frame serial).MadeOf m ↔
    m.runs ∧ formals.MadeOf m ∧ ∀ v ∈ body, v.MadeOf m :=
  ⟨fun h => by cases h; exact ⟨‹_›, ‹_›, ‹_›⟩, fun h => .closure h.1 h.2.1 h.2.2⟩

@[simp] theorem madeOf_unknown : unknown.MadeOf m ↔ m.unknown :=
  ⟨fun h => by cases h; assumption, .unknown⟩

attribute [simp] MadeOf.nil MadeOf.str MadeOf.int MadeOf.float

end Parts

namespace MadeOf

theorem tracked (h : v.MadeOf m) : v.Tracked m :=
  .inr h

/-- No items make `nil`. -/
theorem ofList (h : ∀ v ∈ items, v.MadeOf m) : (ofList items).MadeOf m := by
  cases items with
  | nil => exact .nil
  | cons v rest => exact .list h fun _ => List.cons_ne_nil _ _

theorem append (h : ∀ v ∈ items, v.MadeOf m) (h' : ∀ v ∈ more, v.MadeOf m) :
    ∀ v ∈ items ++ more, v.MadeOf m :=
  List.forall_mem_append.2 ⟨h, h'⟩

/-- The end of a list and the items in front of it may be of one material. -/
theorem prepend (h : ∀ v ∈ items, v.MadeOf m) (hv : v.MadeOf m) : (prepend items v).MadeOf m := by
  -- an atom stays alone where there is nothing to put in front of it
  have hatom : v.IsTail → (if items.isEmpty then v else Value.dotted items v).MadeOf m := by
    intro ht
    cases items with
    | nil => exact hv
    | cons x rest => exact .dotted h hv fun _ => ⟨List.cons_ne_nil _ _, ht⟩
  cases hv with
  | nil => exact ofList h
  | list hitems _ => exact ofList (append h hitems)
  | dotted hitems htail hp =>
    rw [Value.prepend]
    split
    · exact ofList (append h hitems)
    · exact .dotted (append h hitems) htail fun hm =>
        ⟨List.append_ne_nil_of_right_ne_nil _ (hp hm).1, (hp hm).2⟩
  | _ => exact hatom True.intro

theorem charCodes (text : String) : ∀ v ∈ charCodes text, v.MadeOf m := by
  intro v hv
  obtain ⟨c, -, rfl⟩ := List.mem_map.1 hv
  exact .int

theorem ofItems (h : ∀ v ∈ items, v.MadeOf m) : Returns (MadeOf m) (ofItems items) :=
  .ite (fun _ => .error) fun _ => .ok (ofList h)

theorem asList (h : v.MadeOf m) : Returns (fun items => ∀ v ∈ items, v.MadeOf m) v.asList := by
  cases h with
  | nil => exact .ok (List.forall_mem_nil _)
  | list h _ => exact .ok h
  | _ => exact .error

/-- Codes of characters are of every material. -/
theorem asSequence (h : v.MadeOf m) :
    Returns (fun items => ∀ v ∈ items, v.MadeOf m) v.asSequence := by
  have hlist := h.asList
  cases h with
  | str => exact .ok (charCodes _)
  | vec h => exact .ok h
  | _ => exact hlist

theorem getD_nil {o : Option Value} (h : ∀ v ∈ o, v.MadeOf m) : (o.getD .nil).MadeOf m := by
  cases o with
  | none => exact .nil
  | some v => exact h v rfl

end MadeOf

namespace Tracked

theorem unknown : Value.unknown.Tracked m :=
  .inl rfl

theorem madeOf (h : v.Tracked m) (hv : v.isUnknown = false) : v.MadeOf m := by
  rcases h with rfl | h
  · cases hv
  · exact h

/-- Where unknown parts are allowed, a value needs no exception. -/
theorem madeOf_of_unknown (hm : m.unknown) (h : v.Tracked m) : v.MadeOf m := by
  rcases h with rfl | h
  · exact .unknown hm
  · exact h

end Tracked

end Value

/-- The code of a function or macro. -/
structure Definition.MadeOf (m : Material) (d : Definition) : Prop where
  formals : d.formals.MadeOf m
  body : ∀ form ∈ d.body, form.MadeOf m

structure Definitions.MadeOf (m : Material) (defs : Definitions) : Prop where
  functions : ∀ name d, defs.functions.get? name = some d → d.MadeOf m
  macros : ∀ name d, defs.macros.get? name = some d → d.MadeOf m
  aliases : ∀ name target, defs.aliases.get? name = some target → m.symbol target

def Global.MadeOf (m : Material) : Global → Prop
  | .pending expr | .busy expr => expr.MadeOf m
  | .known v => v.Tracked m

structure Store.MadeOf (m : Material) (s : Store) : Prop where
  frames : ∀ id name v, s.frames.valueIn? name id = some v → v.Tracked m
  globals : ∀ name g, s.globals.get? name = some g → g.MadeOf m

theorem Store.MadeOf.empty : Store.empty.MadeOf m where
  frames _ _ _ h := by
    obtain ⟨frame, hframe, -⟩ := Option.bind_eq_some_iff.1 h
    cases hframe
  globals _ _ h := by cases h

namespace Definitions.MadeOf

theorem empty : Definitions.empty.MadeOf m where
  functions _ _ h := by cases h
  macros _ _ h := by cases h
  aliases _ _ h := by cases h

variable {defs : Definitions} {name : String}

/-- Aliases lead from names of the material to such names, step by step. -/
theorem follow (h : defs.MadeOf m) (fuel : Nat) (seen : List String) (hn : m.symbol name) :
    m.symbol (Definitions.follow defs.aliases fuel seen name) := by
  induction fuel generalizing seen name with
  | zero => exact hn
  | succ fuel ih =>
    rw [Definitions.follow]
    split
    · exact hn
    · rename_i target htarget
      split
      · exact hn
      · exact ih _ (h.aliases _ _ htarget)

/-- What a name stands for is one of the symbols, too. -/
theorem resolve (h : defs.MadeOf m) (hn : m.symbol name) : m.symbol (defs.resolve name) :=
  h.follow _ _ hn

end Definitions.MadeOf

end PatternLint
