import PatternLint.Proofs.Supervision

/-! The frames of a caller. An evaluation changes one of them exactly where it assigns a name that
it bound somewhere itself, but that means a variable of its caller at this place. -/

namespace PatternLint

variable {n : Nat} {fs : Frames} {name : String} {v : Value} {env : FrameId} {scope : Scope}
  {s t : Store}

/-- The frame that an assignment changes. -/
def Frames.assigned (fs : Frames) (name : String) (env : FrameId) (scope : Scope) : FrameId :=
  if name ∈ scope.mutables then (fs.find? name env).getD scope.root else scope.root

/-- Whether a name that the evaluation bound means a variable in one of the first `n` frames. -/
def Frames.captures (fs : Frames) (n : Nat) (name : String) (env : FrameId)
    (scope : Scope) : Bool :=
  decide (name ∈ scope.mutables) && (fs.find? name env).any (· < n)

theorem assign_eq (name : String) (v : Value) (env : FrameId) (scope : Scope) (s : Store) :
    ∃ u, Evaluation.assign name v env scope s =
      (.ok (), { s with frames := s.frames.define (s.frames.assigned name env scope) name u }) := by
  simp only [Evaluation.assign, Frames.assigned]
  split
  · simp only [Eval.bind_apply, Eval.set]
    cases s.frames.find? name env with
    | none => exact ⟨v, rfl⟩
    | some owner => exact ⟨v, rfl⟩
  · split
    · exact ⟨v, rfl⟩
    · exact ⟨.unknown, rfl⟩

theorem assigned_lt_iff (h : n ≤ scope.root) :
    fs.assigned name env scope < n ↔ fs.captures n name env scope = true := by
  simp only [Frames.assigned, Frames.captures, Bool.and_eq_true, decide_eq_true_eq]
  split
  · cases fs.find? name env with
    | none => simp [*]
    | some owner => simp [*]
  · simp [*]

theorem assign_keeps (hn : n ≤ s.frames.size) (h : n ≤ s.frames.assigned name env scope) :
    Keeps n s.frames (Evaluation.assign name v env scope s).2.frames := by
  obtain ⟨u, hu⟩ := assign_eq name v env scope s
  rw [hu]
  exact (Keeps.refl hn).define h name u

namespace Policy

/-- Refuses assignments to captured variables of the first `n` frames. -/
def sparing (n : Nat) : Policy :=
  assigning fun name v env scope s =>
    if s.frames.captures n name env scope then (.error refusal, s)
    else Evaluation.assign name v env scope s

/-- Refuses assignments that change one of the first `n` frames. -/
def landing (n : Nat) : Policy :=
  assigning fun name v env scope s =>
    if s.frames.assigned name env scope < n then (.error refusal, s)
    else Evaluation.assign name v env scope s

theorem checks_of_assign {f g : String → Value → FrameId → Scope → Eval Unit}
    (h : ∀ name v env scope s, n ≤ scope.root →
      f name v env scope s = g name v env scope s ∧
          (n ≤ s.frames.size → Keeps n s.frames (f name v env scope s).2.frames) ∨
        (f name v env scope s).1 = .error refusal) :
    (assigning f).Checks n g where
  operand _ _ _ _ _ := .inl rfl
  assign := h
  bind _ _ _ := .inl rfl
  home _ _ _ := .inl rfl

theorem sparing_checks (n : Nat) : (sparing n).Checks n Evaluation.assign := by
  refine checks_of_assign fun name v env scope s hroot => ?_
  split
  · exact .inr rfl
  · rename_i hc
    rw [← assigned_lt_iff hroot, Nat.not_lt] at hc
    exact .inl ⟨rfl, fun hn => assign_keeps hn hc⟩

theorem sparing_assign_eq_landing (h : n ≤ scope.root) :
    (sparing n).assign name v env scope s = (landing n).assign name v env scope s := by
  change (if s.frames.captures n name env scope = true then _ else _) = ite _ _ _
  simp only [← assigned_lt_iff h]

theorem sparing_checks_landing (n : Nat) : (sparing n).Checks n (landing n).assign := by
  refine checks_of_assign fun name v env scope s hroot => ?_
  rcases (sparing_checks n).assign name v env scope s hroot with h | h
  · exact .inl ⟨sparing_assign_eq_landing hroot, h.2⟩
  · exact .inr h

theorem landing_checks_sparing (n : Nat) : (landing n).Checks n (sparing n).assign := by
  refine checks_of_assign fun name v env scope s hroot => ?_
  rcases (sparing_checks n).assign name v env scope s hroot with h | h
  · refine .inl ⟨(sparing_assign_eq_landing hroot).symm, fun hn => ?_⟩
    have := h.2 hn
    rw [sparing_assign_eq_landing hroot] at this
    exact this
  · rw [sparing_assign_eq_landing hroot] at h
    exact .inr h

end Policy

/-- All assignments of an evaluation change frames that it made itself exactly when none of them is
to a captured variable of its caller. Then the caller's frames are as they were. -/
theorem callerFrames_kept {run : Supervision.Runner}
    (hrun : run = evaluateBy ∨ run = evaluateListBy) (s t : Store) (expr v : Value)
    (env : Option FrameId) (mutables : List String) (defs : Definitions) (loopLimit : Nat) :
    (run (.sparing s.frames.size) expr env mutables defs loopLimit s = (.ok v, t) ↔
      run (.landing s.frames.size) expr env mutables defs loopLimit s = (.ok v, t)) ∧
    (run (.sparing s.frames.size) expr env mutables defs loopLimit s = (.ok v, t) →
      run .plain expr env mutables defs loopLimit s = (.ok v, t) ∧
        ∀ id < s.frames.size, t.frames[id]? = s.frames[id]?) := by
  refine ⟨⟨fun h => ?_, fun h => ?_⟩, fun h => ?_⟩
  · exact (Supervision.run_of_checked hrun (Policy.sparing_checks_landing _) (Nat.le_refl _) h).1
  · exact (Supervision.run_of_checked hrun (Policy.landing_checks_sparing _) (Nat.le_refl _) h).1
  · have := Supervision.run_of_checked hrun (Policy.sparing_checks _) (Nat.le_refl _) h
    exact ⟨this.1, this.2.same⟩

/-- The only frame of the caller binds `x` to zero. -/
def callerWithX : Store :=
  ⟨#[⟨⟨[("x", .int 0)]⟩, none⟩], 0, .empty⟩

/-- The form `(let ((x 1)) (setq x 5))`. -/
def ownAssignment : Value :=
  .list [.sym "let", .list [.list [.sym "x", .int 1]], .list [.sym "setq", .sym "x", .int 5]]

/-- A closure that assigns `x` is made where `x` is the caller's, and called where another `x` is
bound. -/
def capturedAssignment : Value :=
  .list [.sym "let",
    .list [.list [.sym "f",
      .list [.sym "lambda", .nil, .list [.sym "setq", .sym "x", .int 5]]]],
    .list [.sym "let", .list [.list [.sym "x", .int 1]], .list [.sym "funcall", .sym "f"]]]

theorem ownAssignment_keeps_callerFrames : ∃ v t,
    evaluateBy (.sparing 1) ownAssignment (some 0) [] .empty 1000 callerWithX = (.ok v, t) ∧
      evaluate ownAssignment (some 0) [] .empty 1000 callerWithX = (.ok v, t) ∧
        ∀ id < callerWithX.frames.size, t.frames[id]? = callerWithX.frames[id]? := by
  rcases h : evaluateBy (.sparing 1) ownAssignment (some 0)
    [] .empty 1000 callerWithX with ⟨_ | v, t⟩
  · have : (evaluateBy (.sparing 1) ownAssignment (some 0) [] .empty 1000 callerWithX).1.isOk := by
      decide +kernel
    rw [h] at this
    cases this
  · exact ⟨v, t, rfl, (callerFrames_kept (.inl rfl) callerWithX t _ v _ _ _ _).2 h⟩

/-- Whether a frame binds a name to a number. -/
def Frames.holdsInt (fs : Frames) (name : String) (id : FrameId) (n : Int) : Bool :=
  match fs.valueIn? name id with
  | some (.int m) => m == n
  | _ => false

theorem capturedAssignment_changes_callerFrame :
    ¬∀ (s t : Store) (expr v : Value) (env : Option FrameId) (mutables : List String)
      (defs : Definitions) (loopLimit : Nat),
      evaluate expr env mutables defs loopLimit s = (.ok v, t) →
        ∀ id < s.frames.size, t.frames[id]? = s.frames[id]? := by
  intro h
  rcases hrun : evaluate capturedAssignment (some 0) [] .empty 1000 callerWithX with ⟨_ | v, t⟩
  · have : (evaluate capturedAssignment (some 0) [] .empty 1000 callerWithX).1.isOk := by
      decide +kernel
    rw [hrun] at this
    cases this
  · have hsame := h callerWithX t capturedAssignment v (some 0) [] .empty 1000 hrun 0 (by decide)
    have hfive : t.frames.holdsInt "x" 0 5 := by
      have : (evaluate capturedAssignment (some 0) [] .empty 1000 callerWithX).2.frames.holdsInt
          "x" 0 5 := by
        decide +kernel
      rwa [hrun] at this
    have hzero : callerWithX.frames.holdsInt "x" 0 5 = false := by
      decide
    simp only [Frames.holdsInt, Frames.valueIn?, hsame] at hfive hzero
    rw [hzero] at hfive
    cases hfive

end PatternLint
