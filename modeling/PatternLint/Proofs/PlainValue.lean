import PatternLint.Evaluation.Eval
import PatternLint.Evaluation.Scope
import PatternLint.Proofs.Matching

/-! What holds no closures stands for itself, whatever stands for what else. -/

namespace PatternLint

/-- A value without closures. -/
def Value.IsPlain (v : Value) : Prop :=
  Matches ⟨fun _ _ => False, fun _ _ => False⟩ v v

def Definitions.IsPlain (defs : Definitions) : Prop :=
  ∀ name d, defs.functions.get? name = some d ∨ defs.macros.get? name = some d →
    d.formals.IsPlain ∧ ∀ form ∈ d.body, form.IsPlain

namespace Value

variable {items : List Value} {tail : Value}

theorem isPlain_all : MatchesAll ⟨fun _ _ => False, fun _ _ => False⟩ items items ↔
    ∀ v ∈ items, v.IsPlain :=
  List.forall₂_same

@[simp] theorem isPlain_list : (list items).IsPlain ↔ ∀ v ∈ items, v.IsPlain :=
  ⟨fun h => by cases h; exact isPlain_all.1 ‹_›, fun h => .list (isPlain_all.2 h)⟩

@[simp] theorem isPlain_vec : (vec items).IsPlain ↔ ∀ v ∈ items, v.IsPlain :=
  ⟨fun h => by cases h; exact isPlain_all.1 ‹_›, fun h => .vec (isPlain_all.2 h)⟩

@[simp] theorem isPlain_dotted :
    (dotted items tail).IsPlain ↔ (∀ v ∈ items, v.IsPlain) ∧ tail.IsPlain :=
  ⟨fun h => by cases h; exact ⟨isPlain_all.1 ‹_›, ‹_›⟩, fun h => .dotted (isPlain_all.2 h.1) h.2⟩

@[simp] theorem isPlain_nil : nil.IsPlain :=
  .nil

@[simp] theorem isPlain_str {text : String} : (str text).IsPlain :=
  .str text

@[simp] theorem isPlain_int {n : Int} : (int n).IsPlain :=
  .int n

@[simp] theorem isPlain_sym {name : String} : (sym name).IsPlain :=
  .sym name

end Value

theorem Value.IsPlain.matches {v : Value} (h : v.IsPlain) (c : Labels) : Matches c v v :=
  Matches.mono (fun _ _ => False.elim) (fun _ _ => False.elim) h

/-- A value without closures stands for itself only. -/
theorem Value.IsPlain.eq {v v' : Value} {c : Labels} (h : v.IsPlain) (h' : Matches c v v') :
    v = v' := by
  have hc : Labels.Coherent ⟨fun _ _ => False, fun _ _ => False⟩ c :=
    ⟨fun _ _ _ => False.elim, fun _ _ _ => False.elim⟩
  exact Matches.unique hc h _ h'

theorem Value.IsPlain.eq_of {v v' : Value} {c : Labels} (h : v'.IsPlain) (h' : Matches c v v') :
    v = v' :=
  (h.eq h'.swap).symm

theorem Definitions.IsPlain.matches {defs : Definitions} (h : defs.IsPlain) (c : Labels)
    (name : String) (d : Definition)
    (hd : defs.functions.get? name = some d ∨ defs.macros.get? name = some d) :
    Matches c d.formals d.formals ∧ MatchesAll c d.body d.body :=
  ⟨(h name d hd).1.matches c, List.forall₂_same.mpr fun form hf =>
    ((h name d hd).2 form hf).matches c⟩

/-- Global variables in the same state. -/
inductive Global.Same (tolerant : Prop) (c : Labels) : Global → Global → Prop
  | pending {e e' : Value} (h : Matches c e e') : Same tolerant c (.pending e) (.pending e')
  | busy {e e' : Value} (h : Matches c e e') : Same tolerant c (.busy e) (.busy e')
  | known {v v' : Value} (h : Loose tolerant c v v') : Same tolerant c (.known v) (.known v')

/-- A global variable without closures. -/
def Global.IsPlain : Global → Prop
  | .pending e | .busy e => e.IsPlain
  | .known v => v.IsPlain

theorem Global.IsPlain.same {g : Global} (h : g.IsPlain) (tolerant : Prop) (c : Labels) :
    g.Same tolerant c g := by
  cases g with
  | pending e => exact .pending (Value.IsPlain.matches h c)
  | busy e => exact .busy (Value.IsPlain.matches h c)
  | known v => exact .known (.inl (Value.IsPlain.matches h c))

/-- Global variables none of which holds a closure. -/
def Table.IsPlain (T : Table Global) : Prop :=
  ∀ name g, T.get? name = some g → g.IsPlain

theorem Table.IsPlain.put {T : Table Global} {g : Global} (h : T.IsPlain) (hg : g.IsPlain)
    (name : String) : (T.put name g).IsPlain := by
  intro k g' hk
  rw [Table.get?_put] at hk
  split at hk
  · cases hk
    exact hg
  · exact h k g' hk

end PatternLint
