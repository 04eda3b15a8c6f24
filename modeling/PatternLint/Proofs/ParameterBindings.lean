import PatternLint.Evaluation.Eval
import PatternLint.Proofs.RegexpParameters

/-! What parameters are bound to. In a lambda list whose keywords stand in the usual order, the
place of a parameter alone tells which arguments it is bound to, although they are bound by one pass
that changes its mode at keywords and takes arguments as it goes. -/

namespace PatternLint.LambdaList

variable {mode m : Mode} {spec : Spec} {name : String} {args : List Value}
  {ss before after : List Spec}

/-! ### The order of keywords -/

/-- The kinds of parameters are numbered in the order in which a lambda list has them. -/
def Mode.rank : Mode → Nat
  | .required => 0
  | .optional => 1
  | .rest => 2
  | .untracked => 3

def Spec.mode? : Spec → Option Mode
  | .keyword mode => some mode
  | _ => none

/-- Keywords stand in the order `&optional`, `&rest` or `&body`, and then `&key`,
`&allow-other-keys` and `&aux`, if at all. Nothing hangs on the order of the last three, or on how
often a keyword stands. -/
def Ordered (ss : List Spec) : Prop :=
  (ss.filterMap Spec.mode?).Pairwise fun m m' => m.rank ≤ m'.rank

instance (ss : List Spec) : Decidable (Ordered ss) :=
  inferInstanceAs (Decidable (List.Pairwise _ _))

/-- A lambda list with its keywords in order, all parameters of which are names or lists headed by a
name. -/
structure Regular (ss : List Spec) : Prop where
  named : .pattern ∉ ss
  ordered : Ordered ss

theorem mem_filterMap_mode? : m ∈ ss.filterMap Spec.mode? ↔ .keyword m ∈ ss := by
  rw [List.mem_filterMap]
  constructor
  · rintro ⟨spec, hspec, h⟩
    cases spec with
    | keyword => exact Option.some_inj.1 h ▸ hspec
    | _ => cases h
  · exact fun h => ⟨_, h, rfl⟩

theorem Ordered.rank_le (h : Ordered (before ++ after)) {m m' : Mode} (hm : .keyword m ∈ before)
    (hm' : .keyword m' ∈ after) : m.rank ≤ m'.rank := by
  rw [Ordered, List.filterMap_append, List.pairwise_append] at h
  exact h.2.2 m (mem_filterMap_mode?.2 hm) m' (mem_filterMap_mode?.2 hm')

theorem Ordered.left (h : Ordered (before ++ after)) : Ordered before := by
  rw [Ordered, List.filterMap_append, List.pairwise_append] at h
  exact h.1

theorem Ordered.tail (h : Ordered (spec :: ss)) : Ordered ss := by
  rw [← List.singleton_append, Ordered, List.filterMap_append, List.pairwise_append] at h
  exact h.2.1

theorem Regular.left (h : Regular (before ++ after)) : Regular before :=
  ⟨fun hp => h.named (List.mem_append_left _ hp), h.ordered.left⟩

theorem kindBehind_mem (mode : Mode) (ss : List Spec) :
    kindBehind mode ss = mode ∨ .keyword (kindBehind mode ss) ∈ ss := by
  induction ss generalizing mode with
  | nil => exact .inl rfl
  | cons spec rest ih =>
    cases spec with
    | keyword m =>
      rcases ih m with h | h
      · exact .inr (List.mem_cons.2 (.inl (congrArg _ h)))
      · exact .inr (.tail _ h)
    | pattern | plain | listed => exact (ih mode).imp_right (.tail _)

/-- No keyword stands behind the one that decides. -/
theorem Ordered.rank_le_kindBehind (h : Ordered ss) (hm : .keyword m ∈ ss) (mode : Mode) :
    m.rank ≤ (kindBehind mode ss).rank := by
  induction ss generalizing mode with
  | nil => cases hm
  | cons spec rest ih =>
    rcases List.mem_cons.1 hm with rfl | hrest
    · rcases kindBehind_mem m rest with hk | hk
      · exact Nat.le_of_eq (congrArg Mode.rank hk.symm)
      · rw [← List.singleton_append] at h
        exact h.rank_le (.head _) hk
    · cases spec with
      | keyword m' => exact ih h.tail hrest m'
      | pattern | plain | listed => exact ih h.tail hrest mode

/-- The keyword that is last in order decides. -/
theorem Ordered.kindBehind_eq (h : Ordered ss) :
    kindBehind .required ss =
      if .keyword .untracked ∈ ss then .untracked
      else if .keyword .rest ∈ ss then .rest
      else if .keyword .optional ∈ ss then .optional
      else .required := by
  have hle (m : Mode) (hm : .keyword m ∈ ss) := h.rank_le_kindBehind hm .required
  have hmem := kindBehind_mem .required ss
  by_cases hu : .keyword .untracked ∈ ss
  · have hrank := hle _ hu
    cases hk : kindBehind .required ss <;> simp_all [Mode.rank]
  by_cases hr : .keyword .rest ∈ ss
  · have hrank := hle _ hr
    cases hk : kindBehind .required ss <;> simp_all [Mode.rank]
  by_cases ho : .keyword .optional ∈ ss
  · have hrank := hle _ ho
    cases hk : kindBehind .required ss <;> simp_all [Mode.rank]
  · cases hk : kindBehind .required ss <;> simp_all

/-! ### What is left for a parameter -/

theorem leaves_append (mode : Mode) (before after : List Spec) (args : List Value) :
    leaves mode (before ++ after) args =
      leaves (kindBehind mode before) after (leaves mode before args) := by
  induction before generalizing mode args with
  | nil => rfl
  | cons spec rest ih =>
    cases spec with
    | keyword mode' => exact ih mode' args
    | pattern => exact ih mode args
    | plain name | listed name => exact ih mode _

theorem aligned_of_tracked (hm : mode ≠ .untracked) (hu : .keyword .untracked ∉ ss)
    (hp : .pattern ∉ ss) : aligned mode ss := by
  induction ss generalizing mode with
  | nil => rfl
  | cons spec rest ih =>
    rw [List.mem_cons, not_or] at hu hp
    cases spec with
    | keyword m => exact ih (fun h => hu.1 (congrArg _ h.symm)) hu.2 hp.2
    | pattern => exact absurd rfl hp.1
    | plain | listed => simpa [aligned, hm] using ih hm hu.2 hp.2

/-- Parameters that take one argument each leave the ones behind. -/
theorem leaves_of_positional (hr : .keyword .rest ∉ ss) (hu : .keyword .untracked ∉ ss)
    (hp : .pattern ∉ ss) (args : List Value) :
    leaves .required ss args = args.drop (ss.countP Spec.isParameter) := by
  rw [leaves_eq_drop required_ne_rest hr, (demands_eq_iff _ _).2]
  exact aligned_of_tracked (by decide) hu hp

/-- The first parameter that gathers arguments leaves none. -/
theorem leaves_of_gathering (hk : ∀ m, .keyword m ∈ ss → m = .rest) (hp : .pattern ∉ ss)
    (args : List Value) :
    leaves .rest ss args = if ss.countP Spec.isParameter = 0 then args else [] := by
  induction ss generalizing args with
  | nil => rfl
  | cons spec rest ih =>
    have hrest : .pattern ∉ rest := fun h => hp (.tail _ h)
    have hkeywords : ∀ m, .keyword m ∈ rest → m = .rest := fun m h => hk m (.tail _ h)
    cases spec with
    | keyword m =>
      rw [hk m (.head _)]
      exact ih hkeywords hrest args
    | pattern => exact absurd (.head _) hp
    | plain name | listed name =>
      rw [List.countP_cons_of_pos rfl, if_neg (Nat.succ_ne_zero _)]
      exact (ih hkeywords hrest []).trans (ite_self _)

/-- The arguments are left to the first parameter behind the first keyword that gathers them. -/
theorem leaves_behind_gathering (h : Regular (before ++ .keyword .rest :: after))
    (hr : .keyword .rest ∉ before) (hu : .keyword .untracked ∉ before ++ .keyword .rest :: after)
    (args : List Value) :
    leaves .required (before ++ .keyword .rest :: after) args =
      if after.countP Spec.isParameter = 0 then args.drop (before.countP Spec.isParameter)
      else [] := by
  have hkeywords : ∀ m, .keyword m ∈ after → m = .rest := fun m hm => by
    have hordered : Ordered ((before ++ [.keyword .rest]) ++ after) := by
      simpa using h.ordered
    have hrank := hordered.rank_le (List.mem_append_right _ (.head _)) hm
    cases m with
    | rest => rfl
    | untracked => exact absurd (List.mem_append_right _ (.tail _ hm)) hu
    | required | optional => exact absurd hrank (by decide)
  have hnamed : .pattern ∉ after := fun hm => h.named (List.mem_append_right _ (.tail _ hm))
  have hleft := leaves_of_positional hr (fun hm => hu (List.mem_append_left _ hm)) h.left.named args
  rw [leaves_append, hleft, leaves, leaves_of_gathering hkeywords hnamed]

/-! ### The place of a parameter -/

/-- A keyword behind which parameters do not take one argument each. -/
def Spec.ends : Spec → Bool
  | .keyword .rest | .keyword .untracked => true
  | _ => false

/-- The number of parameters that take one argument each: those before the first of `&rest`,
`&body`, `&key`, `&allow-other-keys` and `&aux`. -/
def arity (ss : List Spec) : Nat :=
  (ss.takeWhile fun spec => !spec.ends).countP Spec.isParameter

/-- What a parameter behind some entries is bound to in a lambda list in which `k` parameters
take one argument each. Those are bound to `nil` where there is no argument, and a required one
that is written as a list stands for a pattern. The next one, behind `&rest` or `&body`, gathers
the other arguments and leaves none for those that follow. Behind `&key`, `&allow-other-keys` and
`&aux` nothing is tracked. -/
def valueBehind (k : Nat) (before : List Spec) (spec : Spec) (args : List Value) : Value :=
  let j := before.countP Spec.isParameter
  if .keyword .untracked ∈ before then .unknown
  else if j < k then
    if spec.isListed ∧ .keyword .optional ∉ before then .unknown else args.getD j .nil
  else if j = k then Value.ofList (args.drop k)
  else .nil

theorem takeWhile_not_ends (hr : .keyword .rest ∉ before) (hu : .keyword .untracked ∉ before)
    (after : List Spec) : (before ++ after).takeWhile (fun spec => !spec.ends) =
      before ++ after.takeWhile fun spec => !spec.ends := by
  refine List.takeWhile_append_of_pos fun spec hspec => ?_
  rw [Bool.not_eq_true']
  unfold Spec.ends
  split
  · exact absurd hspec hr
  · exact absurd hspec hu
  · rfl

theorem arity_positional (hr : .keyword .rest ∉ before) (hu : .keyword .untracked ∉ before)
    (hspec : spec.isParameter) :
    before.countP Spec.isParameter < arity (before ++ spec :: after) := by
  have hends : spec.ends = false := by
    cases spec with
    | keyword => cases hspec
    | pattern | plain | listed => rfl
  rw [arity, takeWhile_not_ends hr hu, List.takeWhile_cons_of_pos (by rw [hends]; rfl),
    List.countP_append, List.countP_cons_of_pos hspec]
  omega

theorem arity_gathering (hr : .keyword .rest ∉ before) (hu : .keyword .untracked ∉ before)
    (after : List Spec) :
    arity (before ++ .keyword .rest :: after) = before.countP Spec.isParameter := by
  rw [arity, takeWhile_not_ends hr hu, List.takeWhile_cons_of_neg (by decide), List.append_nil]

theorem next_drop (args : List Value) (j : Nat) : (next (args.drop j)).1 = args.getD j .nil := by
  rw [List.getD_eq_getElem?_getD, ← List.head?_drop]
  cases args.drop j <;> rfl

/-- What a parameter takes of the arguments that are left is told by its place. -/
theorem take_leaves (h : Regular (before ++ spec :: after)) (hspec : spec.isParameter)
    (args : List Value) :
    (take (kindBehind .required before) spec.isListed (leaves .required before args)).1 =
      valueBehind (arity (before ++ spec :: after)) before spec args := by
  have hbefore := h.left
  rw [hbefore.ordered.kindBehind_eq, valueBehind]
  by_cases hu : .keyword .untracked ∈ before
  · rw [if_pos hu, if_pos hu, take]
  rw [if_neg hu, if_neg hu]
  by_cases hr : .keyword .rest ∈ before
  · rw [if_pos hr]
    obtain ⟨first, between, rfl, hfirst⟩ := List.eq_append_cons_of_mem hr
    have hu' : .keyword .untracked ∉ first := fun hm => hu (List.mem_append_left _ hm)
    rw [leaves_behind_gathering hbefore hfirst hu, List.append_assoc, List.cons_append,
      arity_gathering hfirst hu', List.countP_append, List.countP_cons_of_neg (by decide),
      if_neg (Nat.not_lt.2 (Nat.le_add_right _ _)), take]
    by_cases hfree : between.countP Spec.isParameter = 0
    · rw [if_pos hfree, hfree, Nat.add_zero, if_pos rfl]
    · rw [if_neg hfree, if_neg (by omega)]
      rfl
  · rw [if_neg hr, if_pos (arity_positional hr hu hspec), leaves_of_positional hr hu hbefore.named]
    by_cases ho : .keyword .optional ∈ before
    · rw [if_pos ho, if_neg fun h => h.2 ho, take, next_drop]
    · cases spec <;> simp_all [take, Spec.isListed, next_drop]

/-- Arguments are bound in a new frame, which has exactly the names of the lambda list and leaves
all other frames as they are. Each name is bound as the place of its last parameter says. -/
theorem parameters_bound (formals : Value) (args : List Value)
    (closure : Option FrameId) (s : Store) (h : Regular (specs formals)) :
    ∃ vars t, Eval.newFrame closure (bind formals args) s = (.ok s.frames.size, t) ∧
      t.frames[s.frames.size]? = some ⟨vars, closure⟩ ∧
      (∀ id < s.frames.size, t.frames[id]? = s.frames[id]?) ∧
      (∀ name, vars.contains name = true ↔ name ∈ names formals) ∧
      ∀ before spec after name, specs formals = before ++ spec :: after → spec.name? = some name →
        name ∉ after.filterMap Spec.name? →
          vars.get? name = some (valueBehind (arity (specs formals)) before spec args) := by
  refine ⟨.ofList (bind formals args), _, rfl, Array.getElem?_push_size, fun id hid => ?_,
    fun name => ?_, fun before spec after name hentries hname hlast => ?_⟩
  · exact (Array.getElem?_push ..).trans (if_neg (Nat.ne_of_lt hid))
  · rw [Table.contains_ofList, map_fst_bind]
  · rw [get?_bind_last hentries hname hlast, hentries]
    exact congrArg some (take_leaves (hentries ▸ h) (Analysis.isParameter_of_name? hname) args)

/-- `(a (b 0) &optional (c 0) d &rest more extra &key k &aux (a 0))`, called with five arguments
inside of a frame. The last `a` decides. -/
theorem mixedParameters_bound :
    let formals : Value :=
      .list [.sym "a", .list [.sym "b", .int 0], .sym "&optional", .list [.sym "c", .int 0],
        .sym "d", .sym "&rest", .sym "more", .sym "extra", .sym "&key", .sym "k", .sym "&aux",
        .list [.sym "a", .int 0]]
    let args : List Value := [.int 1, .int 2, .int 3, .int 4, .int 5]
    let s : Store := ⟨#[⟨.ofList [("z", .int 7)], none⟩], 0, .empty⟩
    Regular (specs formals) ∧
      ∃ vars t, Eval.newFrame (some 0) (bind formals args) s = (.ok 1, t) ∧
        t.frames[1]? = some ⟨vars, some 0⟩ ∧ t.frames[0]? = s.frames[0]? ∧
        vars.contains "z" = false ∧ vars.get? "a" = some .unknown ∧ vars.get? "b" = some .unknown ∧
        vars.get? "c" = some (.int 3) ∧ vars.get? "d" = some (.int 4) ∧
        vars.get? "more" = some (.list [.int 5]) ∧ vars.get? "extra" = some .nil ∧
        vars.get? "k" = some .unknown := by
  intro formals args s
  have h : Regular (specs formals) := ⟨by decide, by decide⟩
  obtain ⟨vars, t, hrun, hnew, hold, hnames, hvalues⟩ := parameters_bound formals args (some 0) s h
  have hvalue (n : Nat) (spec : Spec) := hvalues ((specs formals).take n) spec
    ((specs formals).drop (n + 1))
  refine ⟨h, vars, t, hrun, hnew, hold 0 (by decide), ?_, ?_, ?_, ?_, ?_, ?_, ?_, ?_⟩
  · rw [Bool.eq_false_iff, Ne, hnames]
    decide
  · exact hvalue 11 (.listed "a") "a" rfl rfl (by decide)
  · exact hvalue 1 (.listed "b") "b" rfl rfl (by decide)
  · exact hvalue 3 (.listed "c") "c" rfl rfl (by decide)
  · exact hvalue 4 (.plain "d") "d" rfl rfl (by decide)
  · exact hvalue 6 (.plain "more") "more" rfl rfl (by decide)
  · exact hvalue 7 (.plain "extra") "extra" rfl rfl (by decide)
  · exact hvalue 9 (.plain "k") "k" rfl rfl (by decide)

end PatternLint.LambdaList
