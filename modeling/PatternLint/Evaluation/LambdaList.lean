import PatternLint.Value.Basic

/-! Lambda lists. The number of arguments is never wrong: a missing argument is `nil`, and surplus
ones are dropped. Defaults are not evaluated, and keyword parameters are bound to unknown values. -/

namespace PatternLint.LambdaList

/-- The kind of the parameters at some place of a lambda list. -/
inductive Mode where
  | required
  | optional
  | rest
  | untracked
  deriving Repr, DecidableEq

/-- The kind of the parameters behind a keyword. -/
def keywordMode? (name : String) : Option Mode :=
  [("&optional", Mode.optional), ("&rest", .rest), ("&body", .rest), ("&key", .untracked),
    ("&aux", .untracked), ("&allow-other-keys", .untracked)].lookup name

/-- One entry of a lambda list. A parameter may be written as a list headed by its name; patterns
bind nothing. -/
inductive Spec where
  | keyword (mode : Mode)
  | plain (name : String)
  | listed (name : String)
  | pattern
  deriving Repr, DecidableEq

def Spec.of : Value → Spec
  | .sym name =>
    match keywordMode? name with
    | some mode => .keyword mode
    | none => .plain name
  | .list (.sym name :: _) => .listed name
  | _ => .pattern

def Spec.name? : Spec → Option String
  | .plain name | .listed name => some name
  | _ => none

def specs (formals : Value) : List Spec :=
  match formals with
  | .list items => items.map Spec.of
  | _ => []

/-- The names that a lambda list binds, in order. -/
def names (formals : Value) : List String :=
  (specs formals).filterMap Spec.name?

/-- The next argument, `nil` if there is none, and the arguments behind it. -/
def next : List Value → Value × List Value
  | [] => (.nil, [])
  | v :: rest => (v, rest)

/-- What a parameter is bound to, and the arguments that are left. A required parameter written as a
list stands for a pattern, whose parts are not tracked. -/
def take (mode : Mode) (listed : Bool) (args : List Value) : Value × List Value :=
  match mode with
  | .rest => (Value.ofList args, [])
  | .untracked => (.unknown, args)
  | .optional => next args
  | .required => if listed then (.unknown, args.drop 1) else next args

def bindSpecs (mode : Mode) : List Spec → List Value → List (String × Value)
  | [], _ => []
  | .keyword mode :: rest, args => bindSpecs mode rest args
  | .pattern :: rest, args => bindSpecs mode rest args
  | .plain name :: rest, args =>
    let (v, args) := take mode false args
    (name, v) :: bindSpecs mode rest args
  | .listed name :: rest, args =>
    let (v, args) := take mode true args
    (name, v) :: bindSpecs mode rest args

/-- The bindings of the parameters, in order. -/
def bind (formals : Value) (args : List Value) : List (String × Value) :=
  bindSpecs .required (specs formals) args

/-- The arguments that parameters gather into lists. -/
def gathered (mode : Mode) : List Spec → List Value → List Value
  | [], _ => []
  | .keyword mode :: rest, args => gathered mode rest args
  | .pattern :: rest, args => gathered mode rest args
  | .plain _ :: rest, args =>
    (if mode = .rest then args else []) ++ gathered mode rest (take mode false args).2
  | .listed _ :: rest, args =>
    (if mode = .rest then args else []) ++ gathered mode rest (take mode true args).2

theorem map_fst_bindSpecs (mode : Mode) (ss : List Spec) (args : List Value) :
    (bindSpecs mode ss args).map (·.1) = ss.filterMap Spec.name? := by
  fun_induction bindSpecs mode ss args <;> simp_all [List.filterMap_cons, Spec.name?]

/-- Exactly the names of the lambda list are bound. -/
theorem map_fst_bind (formals : Value) (args : List Value) :
    (bind formals args).map (·.1) = names formals :=
  map_fst_bindSpecs _ _ _

theorem gathered_subset (mode : Mode) (ss : List Spec) (args : List Value) :
    gathered mode ss args ⊆ args := by
  have htake : ∀ mode listed (args : List Value), (take mode listed args).2 ⊆ args := by
    intro mode listed args
    cases mode <;> cases listed <;> cases args <;> simp [take, next]
  induction ss generalizing mode args with
  | nil => exact List.nil_subset _
  | cons spec rest ih =>
    cases spec with
    | keyword mode => exact ih mode args
    | pattern => exact ih mode args
    | plain name | listed name =>
      refine List.append_subset.2 ⟨?_, List.Subset.trans (ih _ _) (htake _ _ _)⟩
      split
      · exact List.Subset.refl _
      · exact List.nil_subset _

/-- Without a parameter for all arguments that are left, none are gathered. -/
theorem gathered_eq_nil {mode : Mode} {ss : List Spec} (hm : mode ≠ .rest)
    (hs : .keyword .rest ∉ ss) (args : List Value) : gathered mode ss args = [] := by
  induction ss generalizing mode args with
  | nil => rfl
  | cons spec rest ih =>
    have hrest : .keyword .rest ∉ rest := fun h => hs (.tail _ h)
    cases spec with
    | keyword mode' =>
      refine ih (fun hmode => hs ?_) hrest args
      rw [hmode]
      exact .head _
    | pattern => exact ih hm hrest args
    | plain name | listed name =>
      rw [gathered, if_neg hm, ih hm hrest]
      rfl

end PatternLint.LambdaList
