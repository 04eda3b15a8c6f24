import PatternLint.Analysis.Naming
import PatternLint.Table

/-! Positions of parameters and of arguments. The positions at which a function seems to take
regexps are counted in its lambda list, and the arguments of a call are bound parameter by
parameter. Both agree as long as every parameter takes an argument. -/

namespace PatternLint

namespace LambdaList

variable {mode : Mode} {spec : Spec} {name : String} {args : List Value} {p index : Nat}
  {ss before after before' after' : List Spec}

/-! ### What binding takes -/

/-- The kind of the parameters behind some entries. -/
def kindBehind (mode : Mode) : List Spec → Mode
  | [] => mode
  | .keyword mode :: rest => kindBehind mode rest
  | _ :: rest => kindBehind mode rest

/-- The arguments that some entries leave. -/
def leaves (mode : Mode) : List Spec → List Value → List Value
  | [], args => args
  | .keyword mode :: rest, args => leaves mode rest args
  | .pattern :: rest, args => leaves mode rest args
  | .plain _ :: rest, args => leaves mode rest (take mode false args).2
  | .listed _ :: rest, args => leaves mode rest (take mode true args).2

/-- Entries of a parameter list are bound in turn; the kind and the arguments go on from one to the
next. -/
theorem bindSpecs_append (mode : Mode) (before after : List Spec) (args : List Value) :
    bindSpecs mode (before ++ after) args = bindSpecs mode before args ++
      bindSpecs (kindBehind mode before) after (leaves mode before args) := by
  induction before generalizing mode args with
  | nil => rfl
  | cons spec rest ih =>
    cases spec with
    | keyword mode' => exact ih mode' args
    | pattern => exact ih mode args
    | plain name | listed name => exact congrArg (_ :: ·) (ih mode _)

/-- A parameter takes one argument, unless it is not tracked. -/
def demand (mode : Mode) : Nat :=
  if mode = .untracked then 0 else 1

/-- The number of arguments that entries take, none of which gathers arguments. -/
def demands (mode : Mode) : List Spec → Nat
  | [] => 0
  | .keyword mode :: rest => demands mode rest
  | .pattern :: rest => demands mode rest
  | .plain _ :: rest | .listed _ :: rest => demand mode + demands mode rest

section Demands

variable (mode : Mode) (name : String) (rest : List Spec)

@[simp] theorem demands_keyword (mode' : Mode) :
    demands mode (.keyword mode' :: rest) = demands mode' rest := rfl

@[simp] theorem demands_pattern : demands mode (.pattern :: rest) = demands mode rest := rfl

/-- A parameter takes one argument or, of some kinds, none. -/
@[simp] theorem demands_plain :
    demands mode (.plain name :: rest) = demand mode + demands mode rest := rfl

@[simp] theorem demands_listed :
    demands mode (.listed name :: rest) = demand mode + demands mode rest := rfl

end Demands

/-- What a parameter leaves are the arguments behind those that it takes. -/
theorem take_drops (hm : mode ≠ .rest) (listed : Bool) (args : List Value) :
    (take mode listed args).2 = args.drop (demand mode) := by
  cases mode with
  | rest => contradiction
  | untracked => rfl
  | required | optional => cases listed <;> cases args <;> rfl

/-- Without a rest parameter, arguments are taken one by one. -/
theorem leaves_eq_drop (hm : mode ≠ .rest) (hs : .keyword .rest ∉ ss) (args : List Value) :
    leaves mode ss args = args.drop (demands mode ss) := by
  induction ss generalizing mode args with
  | nil => rfl
  | cons spec rest ih =>
    have hrest : .keyword .rest ∉ rest := fun h => hs (.tail _ h)
    cases spec with
    | keyword mode' =>
      refine ih (fun hmode => hs ?_) hrest args
      rw [hmode]
      exact .head _
    | pattern => exact ih hm hrest args
    | plain name | listed name =>
      refine (ih hm hrest _).trans ?_
      rw [take_drops hm, List.drop_drop]
      rfl

theorem kindBehind_ne_rest (hm : mode ≠ .rest) (hs : .keyword .rest ∉ ss) :
    kindBehind mode ss ≠ .rest := by
  induction ss generalizing mode with
  | nil => exact hm
  | cons spec rest ih =>
    have hrest : .keyword .rest ∉ rest := fun h => hs (.tail _ h)
    cases spec with
    | keyword mode' =>
      refine ih (fun hmode => hs ?_) hrest
      rw [hmode]
      exact .head _
    | pattern | plain name | listed name => exact ih hm hrest

/-! ### What is counted -/

/-- An entry that is counted as a parameter, pattern or not. -/
@[simp] def Spec.isParameter : Spec → Bool
  | .keyword _ => false
  | _ => true

/-- Every parameter takes an argument: it has a name and is tracked. -/
def aligned (mode : Mode) : List Spec → Bool
  | [] => true
  | .keyword mode :: rest => aligned mode rest
  | .pattern :: _ => false
  | .plain _ :: rest | .listed _ :: rest => mode != .untracked && aligned mode rest

section Aligned

variable (mode : Mode) (name : String) (rest : List Spec)

@[simp] theorem aligned_keyword (mode' : Mode) :
    aligned mode (.keyword mode' :: rest) = aligned mode' rest := rfl

/-- Nothing is in line behind a pattern, which is counted and takes nothing. -/
@[simp] theorem aligned_pattern : aligned mode (.pattern :: rest) = false := rfl

@[simp] theorem aligned_plain :
    aligned mode (.plain name :: rest) = (mode != .untracked && aligned mode rest) := rfl

@[simp] theorem aligned_listed :
    aligned mode (.listed name :: rest) = (mode != .untracked && aligned mode rest) := rfl

end Aligned

/-- All entries are in line if those before and those behind are. -/
theorem aligned_append (mode : Mode) (before after : List Spec) :
    aligned mode (before ++ after) =
      (aligned mode before && aligned (kindBehind mode before) after) := by
  induction before generalizing mode with
  | nil => rfl
  | cons spec rest ih =>
    cases spec with
    | keyword mode' => exact ih mode'
    | pattern => rfl
    | plain name | listed name =>
      exact (congrArg _ (ih mode)).trans (Bool.and_assoc _ _ _).symm

theorem demand_cases (mode : Mode) :
    mode = .untracked ∧ demand mode = 0 ∨ mode ≠ .untracked ∧ demand mode = 1 := by
  by_cases h : mode = .untracked
  · exact .inl ⟨h, if_pos h⟩
  · exact .inr ⟨h, if_neg h⟩

/-- No parameter takes more than one argument. -/
theorem demands_le (mode : Mode) (ss : List Spec) : demands mode ss ≤
      ss.countP Spec.isParameter := by
  induction ss generalizing mode with
  | nil => exact Nat.le_refl _
  | cons spec rest ih =>
    have hdemand := demand_cases mode
    have hrest := ih mode
    cases spec with
    | keyword mode' => simpa [List.countP_cons] using ih mode'
    | pattern | plain name | listed name =>
      simp only [demands_pattern, demands_plain, demands_listed, List.countP_cons, Spec.isParameter,
        if_true]
      omega

/-- Entries take as many arguments as there are parameters if and only if
each parameter takes one. -/
theorem demands_eq_iff (mode : Mode) (ss : List Spec) :
    demands mode ss = ss.countP Spec.isParameter ↔ aligned mode ss := by
  induction ss generalizing mode with
  | nil => exact iff_of_true rfl rfl
  | cons spec rest ih =>
    have hle := demands_le mode rest
    cases spec with
    | keyword mode' => simpa [List.countP_cons] using ih mode'
    | pattern =>
      simp only [demands_pattern, aligned_pattern, List.countP_cons, Spec.isParameter, if_true,
        Bool.false_eq_true, iff_false]
      omega
    | plain name | listed name =>
      simp only [demands_plain, demands_listed, aligned_plain, aligned_listed, List.countP_cons,
        Spec.isParameter, if_true, Bool.and_eq_true, bne_iff_ne, ← ih mode]
      obtain ⟨hmode, hdemand⟩ | ⟨hmode, hdemand⟩ := demand_cases mode
      · exact iff_of_false (by omega) fun h => h.1 hmode
      · rw [hdemand, and_iff_right hmode]
        omega

theorem demands_append (mode : Mode) (before after : List Spec) :
    demands mode (before ++ after) =
      demands mode before + demands (kindBehind mode before) after := by
  induction before generalizing mode with
  | nil => exact (Nat.zero_add _).symm
  | cons spec rest ih =>
    cases spec with
    | keyword mode' => exact ih mode'
    | pattern => exact ih mode
    | plain name | listed name =>
      exact (congrArg _ (ih mode)).trans (Nat.add_assoc _ _ _).symm

/-- A parameter is told by the number of parameters before it. -/
theorem split_unique {spec' : Spec} (h : before ++ spec :: after = before' ++ spec' :: after')
    (hspec : spec.isParameter) (hspec' : spec'.isParameter)
    (hcount : before.countP Spec.isParameter = before'.countP Spec.isParameter) :
    before = before' := by
  induction before generalizing before' with
  | nil =>
    cases before' with
    | nil => rfl
    | cons first rest =>
      cases h
      rw [List.countP_nil, List.countP_cons_of_pos hspec] at hcount
      omega
  | cons first before ih =>
    cases before' with
    | nil =>
      cases h
      rw [List.countP_nil, List.countP_cons_of_pos hspec'] at hcount
      omega
    | cons first' rest =>
      obtain ⟨rfl, htail⟩ := List.cons.inj h
      rw [List.countP_cons, List.countP_cons] at hcount
      rw [ih htail (by omega)]

/-! ### Where both agree -/

/-- Binding takes exactly the argument with an index for an entry: those left before it are the ones
from that index on, and it leaves the ones behind. -/
def TakesAt (index : Nat) (before : List Spec) (spec : Spec) (args : List Value) : Prop :=
  leaves .required before args = args.drop index ∧
    leaves .required (before ++ [spec]) args = args.drop (index + 1)

theorem required_ne_rest : Mode.required ≠ .rest := by decide

/-- How many arguments are dropped can be told from those that are left. -/
theorem drop_eq_drop_iff {k : Nat} (hk : k ≤ p) (hp : p ≤ args.length) :
    args.drop k = args.drop p ↔ k = p := by
  constructor
  · intro h
    have hlength := congrArg List.length h
    rw [List.length_drop, List.length_drop] at hlength
    omega
  · rintro rfl
    rfl

/-- A parameter takes the argument at its own position exactly if all before it are in line. -/
theorem takesAt_iff (hs : .keyword .rest ∉ before) (hspec : spec.isParameter)
    (hcount : before.countP Spec.isParameter = p) (hargs : p < args.length) :
    TakesAt p before spec args ↔ aligned .required (before ++ [spec]) := by
  have hrest : .keyword .rest ∉ before ++ [spec] := by
    have hne : spec ≠ .keyword .rest := by
      rintro rfl
      cases hspec
    simpa [hs] using hne.symm
  have hcount' : (before ++ [spec]).countP Spec.isParameter = p + 1 := by
    rw [List.countP_append, hcount, List.countP_cons_of_pos hspec, List.countP_nil]
  have hle := demands_le .required before
  have hle' := demands_le .required (before ++ [spec])
  have hone : demands (kindBehind .required before) [spec] ≤ 1 :=
    Nat.le_trans (demands_le _ _) (Nat.le_of_eq (List.countP_cons_of_pos hspec))
  rw [TakesAt, leaves_eq_drop required_ne_rest hs, leaves_eq_drop required_ne_rest hrest,
    drop_eq_drop_iff (by omega) (by omega), drop_eq_drop_iff (by omega) (by omega),
    ← demands_eq_iff, hcount', demands_append]
  rw [demands_append] at hle'
  omega

/-- What is bound to an entry for which an argument is taken. A required parameter written as a list
stands for a pattern. -/
def boundTo (kind : Mode) (spec : Spec) (arg : Value) : Value :=
  match kind, spec with
  | .required, .listed _ => .unknown
  | _, _ => arg

/-- A parameter that is written as a list. -/
def Spec.isListed : Spec → Bool
  | .listed _ => true
  | _ => false

/-- The name of an entry is bound by the binding before those of the entries behind it. -/
theorem bindSpecs_named (hname : spec.name? = some name) (kind : Mode) (after : List Spec)
    (args : List Value) :
    ∃ bs, bindSpecs kind (spec :: after) args = (name, (take kind spec.isListed args).1) :: bs ∧
      bs.map (·.1) = after.filterMap Spec.name? := by
  cases spec with
  | keyword | pattern => cases hname
  | plain | listed =>
    cases hname
    exact ⟨_, rfl, map_fst_bindSpecs kind after _⟩

/-- Of all parameters with a name, the last one decides what the name is bound to. -/
theorem get?_bind_last {formals : Value} (hentries : specs formals = before ++ spec :: after)
    (hname : spec.name? = some name) (hlast : name ∉ after.filterMap Spec.name?)
    (args : List Value) : (Table.ofList (bind formals args)).get? name =
      some (take (kindBehind .required before) spec.isListed (leaves .required before args)).1 := by
  obtain ⟨bs, hbs, hnames⟩ := bindSpecs_named hname (kindBehind .required before) after
    (leaves .required before args)
  rw [LambdaList.bind, hentries, bindSpecs_append, hbs]
  exact Table.get?_ofList_append_cons (hnames ▸ hlast) _

theorem take_cons {kind : Mode} (hname : spec.name? = some name)
    (hkind : kind ≠ .rest ∧ kind ≠ .untracked) (arg : Value) (args : List Value) :
    (take kind spec.isListed (arg :: args)).1 = boundTo kind spec arg := by
  cases spec with
  | keyword | pattern => cases hname
  | plain | listed =>
    cases kind with
    | rest => exact absurd rfl hkind.1
    | untracked => exact absurd rfl hkind.2
    | required | optional => rfl

/-- The variable has what the last parameter of its name takes. -/
theorem get?_bind {formals : Value} (hentries : specs formals = before ++ spec :: after)
    (hname : spec.name? = some name) (hs : .keyword .rest ∉ before) (hargs : p < args.length)
    (hlast : name ∉ after.filterMap Spec.name?) (haligned : aligned .required (before ++ [spec]))
    (htakes : TakesAt p before spec args) :
    (Table.ofList (bind formals args)).get? name =
      some (boundTo (kindBehind .required before) spec args[p]) := by
  have htracked : kindBehind .required before ≠ .untracked := by
    rw [aligned_append, Bool.and_eq_true] at haligned
    cases spec with
    | keyword | pattern => cases hname
    | plain | listed => simpa [aligned] using haligned.2
  rw [get?_bind_last hentries hname hlast, htakes.1, List.drop_eq_getElem_cons hargs,
    take_cons hname ⟨kindBehind_ne_rest required_ne_rest hs, htracked⟩]

end LambdaList

namespace Analysis

open LambdaList

variable {p index : Nat} {ss : List Spec} {names : List (List Char)}

/-- A position is that of a parameter with a name, and parameters are counted up to the ones
that gather arguments. -/
theorem exists_of_mem_regexpPositions (h : p ∈ regexpPositions names index ss) :
    ∃ before spec after name, ss = before ++ spec :: after ∧ spec.name? = some name ∧
      .keyword .rest ∉ before ∧ index + before.countP Spec.isParameter = p := by
  induction ss generalizing index with
  | nil => cases h
  | cons first rest ih =>
    -- what is found behind the first entry is found in the whole
    have hbehind {index' : Nat} (hfirst : first ≠ .keyword .rest)
        (hindex : index' = index + [first].countP Spec.isParameter)
        (hp : p ∈ regexpPositions names index' rest) :
        ∃ before spec after name, first :: rest = before ++ spec :: after ∧ spec.name? = some name ∧
          .keyword .rest ∉ before ∧ index + before.countP Spec.isParameter = p := by
      obtain ⟨before, spec, after, name, rfl, hname, hs, hcount⟩ := ih hp
      refine ⟨first :: before, spec, after, name, rfl, hname, ?_, ?_⟩
      · simpa [hs] using hfirst.symm
      · rw [← hcount, hindex, ← List.singleton_append, List.countP_append, Nat.add_assoc]
    cases first with
    | keyword mode =>
      cases mode with
      | rest => cases h
      | required | optional | untracked => exact hbehind nofun rfl h
    | pattern => exact hbehind nofun rfl h
    | plain name | listed name =>
      rw [regexpPositions] at h
      split at h
      · rcases List.mem_cons.mp h with rfl | h
        · exact ⟨[], _, rest, name, rfl, rfl, List.not_mem_nil, rfl⟩
        · exact hbehind nofun rfl h
      · exact hbehind nofun rfl h

/-- The entry of a lambda list that a position was found for: the parameter with a name before which
as many parameters stand. -/
structure Attributed (formals : Value) (doc : Option String) (p : Nat)
    (before : List Spec) (spec : Spec) (after : List Spec) (name : String) : Prop where
  found : p ∈ regexpParameters formals doc
  entries : specs formals = before ++ spec :: after
  named : spec.name? = some name
  count : before.countP Spec.isParameter = p

theorem isParameter_of_name? {spec : Spec} {name : String} (h : spec.name? = some name) :
    spec.isParameter := by
  cases spec with
  | keyword => cases h
  | _ => rfl

theorem Attributed.ungathered {formals : Value} {doc : Option String} {before after : List Spec}
    {spec : Spec} {name : String} (h : Attributed formals doc p before spec after name) :
    .keyword .rest ∉ before := by
  obtain ⟨before', spec', after', name', hentries, hname, hs, hcount⟩ :=
    exists_of_mem_regexpPositions h.found
  rw [h.entries] at hentries
  have hbefore := split_unique hentries (isParameter_of_name? h.named) (isParameter_of_name? hname)
    (by rw [h.count, ← hcount, Nat.zero_add])
  rwa [hbefore]

/-- Every position is that of some parameter, and whenever a call has an argument at that position,
the parameter takes exactly this argument if and only if each parameter up to it takes one; then it
is bound to the argument, provided that its name is not bound again. -/
theorem positions_bound (formals : Value) (doc : Option String) (p : Nat) :
    (p ∈ regexpParameters formals doc →
      ∃ before spec after name, Attributed formals doc p before spec after name) ∧
    ∀ before spec after name, Attributed formals doc p before spec after name →
      ∀ (args : List Value) (hargs : p < args.length),
        (TakesAt p before spec args ↔ aligned .required (before ++ [spec])) ∧
        (aligned .required (before ++ [spec]) → name ∉ after.filterMap Spec.name? →
          (Table.ofList (LambdaList.bind formals args)).get? name =
            some (boundTo (kindBehind .required before) spec args[p])) := by
  constructor
  · intro hp
    obtain ⟨before, spec, after, name, hentries, hname, -, hcount⟩ :=
      exists_of_mem_regexpPositions hp
    exact ⟨before, spec, after, name, hp, hentries, hname, by rw [← hcount, Nat.zero_add]⟩
  · intro before spec after name h args hargs
    have hs := h.ungathered
    have htakes := takesAt_iff hs (isParameter_of_name? h.named) h.count hargs
    exact ⟨htakes, fun haligned hlast =>
      get?_bind h.entries h.named hs hargs hlast haligned (htakes.mpr haligned)⟩

/-- `(a (re "x") &optional pattern &key size)`: the parameter written as a list takes the second
argument without being bound to it, and the optional one is bound to the third. -/
theorem optionalPattern_bound :
    let formals : Value :=
      .list [.sym "a", .list [.sym "re", .str "x"], .sym "&optional", .sym "pattern", .sym "&key",
        .sym "size"]
    let before : List Spec := [.plain "a", .listed "re", .keyword .optional]
    let args : List Value := [.int 1, .int 2, .int 3]
    regexpParameters formals none = [1, 2] ∧
      (Table.ofList (LambdaList.bind formals args)).get? "re" = some .unknown ∧
      TakesAt 2 before (.plain "pattern") args ∧
      (Table.ofList (LambdaList.bind formals args)).get? "pattern" = some (.int 3) := by
  intro formals before args
  have hpositions : regexpParameters formals none = [1, 2] := by decide +kernel
  have hre : Attributed formals none 1 [.plain "a"] (.listed "re")
      [.keyword .optional, .plain "pattern", .keyword .untracked, .plain "size"] "re" :=
    ⟨by rw [hpositions]; decide, rfl, rfl, rfl⟩
  have hpattern : Attributed formals none 2 before (.plain "pattern")
      [.keyword .untracked, .plain "size"] "pattern" :=
    ⟨by rw [hpositions]; decide, rfl, rfl, rfl⟩
  obtain ⟨-, hlisted⟩ := (positions_bound formals none 1).2 _ _ _ _ hre args (by decide)
  obtain ⟨htakes, hplain⟩ := (positions_bound formals none 2).2 _ _ _ _ hpattern args (by decide)
  exact ⟨hpositions, hlisted rfl (by decide), htakes.mpr rfl, hplain rfl (by decide)⟩

/-- Keyword parameters are counted and take no argument, and patterns are counted and take none
either: the second argument of a call is not the one for `regexp` in `(&key name regexp)` and
in `(((a b) c) regexp)`. -/
theorem countedParameter_misbound :
    let keyed : Value := .list [.sym "&key", .sym "name", .sym "regexp"]
    let nested : Value := .list [.list [.list [.sym "a", .sym "b"], .sym "c"], .sym "regexp"]
    1 ∈ regexpParameters keyed none ∧
      (Table.ofList (LambdaList.bind keyed [.sym ":name", .str "["])).get? "regexp" =
        some .unknown ∧
      1 ∈ regexpParameters nested none ∧
      (Table.ofList (LambdaList.bind nested [.int 1, .int 2])).get? "regexp" = some (.int 1) := by
  refine ⟨by decide +kernel, rfl, by decide +kernel, rfl⟩

end Analysis

end PatternLint
