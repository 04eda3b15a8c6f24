import PatternLint.Proofs.PrimitiveFaults
import PatternLint.Rx.Write

/-! The faults of writing structured regexps: their own, codes of no character, and counts or
complaints that hold a numeral too wide to be written. -/

namespace PatternLint

variable {α : Type} {F : Fault → Prop}

class CoversRx (F : Fault → Prop) : Prop extends CoversText F where
  rx : ∀ g, F (.rx g)

namespace FailsIn

variable [CoversRx F]

/-- The faults that structured regexps have of their own. -/
@[simp] theorem rx {g : RxFault} : FailsIn F (.error (.rx g) : Except Fault α) :=
  CoversRx.rx g

/-- A complaint about a part shows the part, and fails in turn when it cannot be shown. -/
@[simp] theorem aboutRx {v : Value} {g : RxFault} :
    FailsIn F (.error (.aboutRx v g) : Except Fault α) := by
  unfold Fault.aboutRx
  split
  · exact CoversRx.rx g
  · exact CoversText.wideResult

end FailsIn

namespace Rx

section Parts

variable [CoversRx F] {v : Value} {args : List Value} {n : Nat} {set : CharSet} {negated : Bool}

/-- A character is a code or a text of one character. -/
@[simp] theorem charCode_failsIn : FailsIn F (charCode v) := by
  unfold charCode
  split
  · simp
  · split <;> simp
  · simp

/-- A text of a set may hold a reversed interval. -/
theorem stringIntervals_failsIn {cs : List Char} : FailsIn F (stringIntervals cs) := by
  fun_induction stringIntervals cs <;> simp_all

@[simp] theorem argument_failsIn : FailsIn F (argument v) := by
  unfold argument
  split
  · simp [stringIntervals_failsIn]
  · simp
  · simp
  · split <;> simp
  · simp

/-- The set of an `any` form fails as one of its arguments does. -/
@[simp] theorem ofArguments_failsIn : FailsIn F (CharSet.ofArguments args) := by
  simp [CharSet.ofArguments]

theorem intervalText_failsIn {interval : Int × Int} : FailsIn F (intervalText interval) := by
  simp [intervalText]

/-- Writing a set can only fail at a code that is no character. -/
theorem bracketText_failsIn : FailsIn F (set.bracketText negated) := by
  simp [CharSet.bracketText, intervalText_failsIn]

@[simp] theorem render_failsIn : FailsIn F (set.render negated) := by
  unfold CharSet.render
  split <;> simp [bracketText_failsIn]

@[simp] theorem stringChoice_failsIn {texts : List (List Char)} :
    FailsIn F (stringChoice texts) := by
  unfold stringChoice
  split <;> simp

/-- A count may have too many digits to be written. -/
@[simp] theorem countText_failsIn : FailsIn F (countText n) := by
  unfold countText Text.Numeral.write
  dsimp only
  split
  · simp
  · rename_i h
    split at h <;> cases h
    simp

@[simp] theorem boundMark_failsIn {high : Option Nat} : FailsIn F (boundMark n high) := by
  unfold boundMark
  split <;> simp

/-- A count is a natural number; the complaint shows anything else. -/
@[simp] theorem count_failsIn : FailsIn F (count v) := by
  unfold count
  split <;> simp

/-- Syntax classes are known by name or by their character. -/
@[simp] theorem syntaxCode_failsIn : FailsIn F (syntaxCode v) := by
  unfold syntaxCode
  split
  · split <;> simp
  · simp

@[simp] theorem categoryCode_failsIn : FailsIn F (categoryCode v) := by
  unfold categoryCode
  split <;> simp

@[simp] theorem operatorName_failsIn : FailsIn F (operatorName v) := by
  unfold operatorName
  split <;> simp

/-- A symbol that names no item is a fault of its own. -/
@[simp] theorem symbolItem_failsIn {name : String} : FailsIn F (symbolItem name) := by
  unfold symbolItem
  split
  · simp
  · split <;> simp

@[simp] theorem negateAtom_failsIn : FailsIn F (negateAtom v) := by
  unfold negateAtom
  dsimp only
  split
  · split <;> simp
  all_goals simp

/-- Operators that have no regexps among their arguments. -/
theorem writeAtom?_failsIn {operator : Operator} {r : Except Fault Item}
    (h : writeAtom? operator args = some r) : FailsIn F r := by
  unfold writeAtom? at h
  split at h
  · obtain ⟨texts, -, rfl⟩ := Option.map_eq_some_iff.1 h
    simp
  all_goals
    cases h
    try simp

/-- The bounds of a repetition are checked after its operand is written. -/
theorem repeated_failsIn {items : Except Fault (List Item)} {low : Nat} {high : Option Nat}
    (h : FailsIn F items) : FailsIn F (do
      let operand := sequence (← items)
      return repeated operand (← boundMark low high)) :=
  .bind h fun _ => .bind boundMark_failsIn fun _ => .ret

end Parts

mutual

/-- The induction follows the forms and their lists of arguments through all four functions. -/
theorem write_failsIn [CoversRx F] (greedy : Bool) (form : Value) :
    FailsIn F (write greedy form) := by
  rw [write.eq_def]
  split
  case h_6 head args =>
    refine .bind operatorName_failsIn fun name => ?_
    split
    · simp
    split
    · rename_i h
      exact writeAtom?_failsIn h
    split
    · exact .bind (writeAll_failsIn greedy args) fun _ => .ret
    · exact writeBy_failsIn greedy name _ args
  all_goals simp
termination_by sizeOf form
decreasing_by all_goals subst_vars; simp only [Value.list.sizeOf_spec, List.cons.sizeOf_spec]; omega

/-- An operator fails as its arguments do, or for their number or kind. -/
theorem writeBy_failsIn [CoversRx F] (greedy : Bool) (name : String) (operator : Operator)
    (args : List Value) : FailsIn F (writeBy greedy name operator args) := by
  rw [writeBy.eq_def]
  split
  case h_1 arg => exact negate_failsIn greedy arg
  case h_2 body => exact .bind count_failsIn fun _ =>
    repeated_failsIn (writeAll_failsIn greedy body)
  case h_3 body => exact .bind count_failsIn fun _ =>
    repeated_failsIn (writeAll_failsIn greedy body)
  case h_4 body =>
    exact .bind count_failsIn fun _ => .bind count_failsIn fun _ =>
      repeated_failsIn (writeAll_failsIn greedy body)
  case h_5 body =>
    exact .bind count_failsIn fun _ => .bind count_failsIn fun _ =>
      repeated_failsIn (writeAll_failsIn greedy body)
  case h_6 body _ =>
    exact .bind count_failsIn fun _ => repeated_failsIn (writeAll_failsIn greedy body)
  case h_7 body =>
    refine .bind count_failsIn fun n => .ite (fun _ => by simp) fun _ => ?_
    exact .bind countText_failsIn fun _ => .bind (writeAll_failsIn greedy body) fun _ => .ret
  case h_8 arg => exact write_failsIn false arg
  case h_9 arg => exact write_failsIn true arg
  case h_10 => simp
termination_by sizeOf args
decreasing_by all_goals subst_vars; simp only [List.cons.sizeOf_spec]; omega

theorem negate_failsIn [CoversRx F] (greedy : Bool) (arg : Value) :
    FailsIn F (negate greedy arg) := by
  rw [negate.eq_def]
  split
  · split
    case h_2 inner _ => exact write_failsIn greedy inner
    all_goals simp
  · exact negateAtom_failsIn
termination_by sizeOf arg
decreasing_by all_goals subst_vars; simp only [Value.list.sizeOf_spec, List.cons.sizeOf_spec]; omega

theorem writeAll_failsIn [CoversRx F] (greedy : Bool) (forms : List Value) :
    FailsIn F (writeAll greedy forms) := by
  rw [writeAll.eq_def]
  split
  · simp
  · rename_i form rest
    exact .bind (write_failsIn greedy form) fun _ =>
      .bind (writeAll_failsIn greedy rest) fun _ => .ret
termination_by sizeOf forms
decreasing_by all_goals subst_vars; simp only [List.cons.sizeOf_spec]; omega

end

end Rx

end PatternLint
