import PatternLint.Proofs.AgreementSequence
import PatternLint.Proofs.ClosedValues
import PatternLint.Proofs.PlainValue
import PatternLint.Proofs.SettlingForms

/-! Values without functions in them: they hold no closure, nor the symbol that closures are written
with. What is computed from such values is without functions, too. -/

namespace PatternLint

/-- All but the symbol that closures are written with. -/
def lambdaFree : Material where
  symbol name := name ≠ "lambda"
  unknown := True
  runs := True
  proper := False
  symbol_t := by decide
  runs_lambda _ := trivial
  runs_rxToString _ := trivial

/-- A computation that agrees with itself returns values that match themselves. -/
theorem returns_of_agrees {c : Labels} {r : Except Fault Value} (h : Agrees (Matches c) r r) :
    Returns (fun v => Matches c v v) r := by
  rintro v rfl
  cases h
  assumption

namespace Value

structure Bare (v : Value) : Prop where
  madeOf : v.MadeOf lambdaFree
  plain : v.IsPlain

variable {v : Value} {items more : List Value} {tail : Value} {name : String}

@[simp] theorem bare_nil : nil.Bare :=
  ⟨.nil, .nil⟩

@[simp] theorem bare_unknown : unknown.Bare :=
  ⟨.unknown trivial, .unknown⟩

@[simp] theorem bare_str {text : String} : (str text).Bare :=
  ⟨.str, .str text⟩

@[simp] theorem bare_int {n : Int} : (int n).Bare :=
  ⟨.int, .int n⟩

/-- The one symbol that is not bare names anonymous functions. -/
@[simp] theorem bare_sym : (sym name).Bare ↔ name ≠ "lambda" :=
  ⟨fun h => madeOf_sym.1 h.madeOf, fun h => ⟨.sym h, .sym name⟩⟩

theorem bare_all : ((∀ v ∈ items, v.MadeOf lambdaFree) ∧ ∀ v ∈ items, v.IsPlain) ↔
    ∀ v ∈ items, v.Bare :=
  ⟨fun h v hv => ⟨h.1 v hv, h.2 v hv⟩, fun h => ⟨fun v hv => (h v hv).madeOf,
    fun v hv => (h v hv).plain⟩⟩

/-- Lists are bare if their items are. -/
@[simp] theorem bare_list : (list items).Bare ↔ ∀ v ∈ items, v.Bare := by
  rw [← bare_all]
  refine ⟨fun h => ⟨(madeOf_list.1 h.madeOf).1, isPlain_list.1 h.plain⟩, fun h => ?_⟩
  exact ⟨.list h.1 False.elim, isPlain_list.2 h.2⟩

@[simp] theorem bare_vec : (vec items).Bare ↔ ∀ v ∈ items, v.Bare := by
  rw [← bare_all]
  exact ⟨fun h => ⟨madeOf_vec.1 h.madeOf, isPlain_vec.1 h.plain⟩,
    fun h => ⟨.vec h.1, isPlain_vec.2 h.2⟩⟩

@[simp] theorem bare_dotted : (dotted items tail).Bare ↔ (∀ v ∈ items, v.Bare) ∧ tail.Bare := by
  rw [← bare_all]
  constructor
  · intro h
    obtain ⟨hitems, htail, -⟩ := madeOf_dotted.1 h.madeOf
    obtain ⟨hitems', htail'⟩ := isPlain_dotted.1 h.plain
    exact ⟨⟨hitems, hitems'⟩, htail, htail'⟩
  · rintro ⟨⟨hitems, hitems'⟩, htail⟩
    exact ⟨.dotted hitems htail.madeOf False.elim, isPlain_dotted.2 ⟨hitems', htail.plain⟩⟩

/-- Closures are not bare, whatever their code. -/
theorem not_bare_closure {formals : Value} {body : List Value} {frame : Option FrameId}
    {serial : Nat} : ¬(closure formals body frame serial).Bare := by
  rintro ⟨-, h⟩
  cases h
  assumption

/-- What is without functions may be code, and has parts that may be. -/
theorem bare_code : Code lambdaFree Bare where
  madeOf _ h := h.madeOf
  nil _ _ := bare_nil
  list _ := bare_list.1
  vec _ := bare_vec.1
  dotted _ _ := bare_dotted.1

namespace Bare

theorem ofList (h : ∀ v ∈ items, v.Bare) : (ofList items).Bare := by
  cases items with
  | nil => exact bare_nil
  | cons v rest => exact bare_list.2 h

theorem prepend (h : ∀ v ∈ items, v.Bare) (hv : v.Bare) : (prepend items v).Bare := by
  obtain ⟨hmade, hplain⟩ := bare_all.2 h
  exact ⟨.prepend hmade hv.madeOf, Matches.prepend (isPlain_all.2 hplain) hv.plain⟩

/-- A list of bare items is bare, if it is built at all. -/
theorem ofItems (h : ∀ v ∈ items, v.Bare) : Returns Bare (ofItems items) :=
  .ite (fun _ => .error) fun _ => .ok (ofList h)

theorem asList (h : v.Bare) : Returns (fun items => ∀ v ∈ items, v.Bare) v.asList := by
  cases v with
  | nil => exact .ok (List.forall_mem_nil _)
  | list items => exact .ok (bare_list.1 h)
  | _ => exact .error

theorem asSequence (h : v.Bare) : Returns (fun items => ∀ v ∈ items, v.Bare) v.asSequence := by
  have hlist := h.asList
  cases v with
  | str text =>
    refine .ok fun v hv => ?_
    obtain ⟨c, -, rfl⟩ := List.mem_map.1 hv
    exact bare_int
  | vec items => exact .ok (bare_vec.1 h)
  | _ => exact hlist

theorem car (h : v.Bare) : Returns Bare (Primitive.car v) :=
  fun x hx => ⟨Primitive.car_madeOf h.madeOf x hx, returns_of_agrees (Matches.car h.plain) x hx⟩

/-- The rest of a bare list is bare. -/
theorem cdr (h : v.Bare) : Returns Bare (Primitive.cdr v) :=
  fun x hx => ⟨Primitive.cdr_madeOf h.madeOf x hx, returns_of_agrees (Matches.cdr h.plain) x hx⟩

end Bare

end Value

/-- Code of a function or macro that is without functions. -/
structure Definition.Bare (d : Definition) : Prop where
  formals : d.formals.Bare
  body : ∀ form ∈ d.body, form.Bare

structure Definitions.Bare (defs : Definitions) : Prop where
  functions : ∀ name d, defs.functions.get? name = some d → d.Bare
  macros : ∀ name d, defs.macros.get? name = some d → d.Bare
  aliases : ∀ name target, defs.aliases.get? name = some target → target ≠ "lambda"

def Global.Bare : Global → Prop
  | .pending expr | .busy expr => expr.Bare
  | .known v => v.Bare

theorem Global.Bare.isPlain {g : Global} (h : g.Bare) : g.IsPlain := by
  cases g <;> exact Value.Bare.plain h

theorem Definitions.Bare.isPlain {defs : Definitions} (h : defs.Bare) : defs.IsPlain := by
  rintro name d (hd | hd)
  · exact ⟨(h.functions name d hd).formals.plain, fun form hf =>
      ((h.functions name d hd).body form hf).plain⟩
  · exact ⟨(h.macros name d hd).formals.plain, fun form hf =>
      ((h.macros name d hd).body form hf).plain⟩

/-- Bare values that match are the same. -/
theorem Loose.eq {c : Labels} {v v' : Value} (h : Loose False c v v') (hv : v.Bare) : v = v' :=
  hv.plain.eq (h.resolve_right fun h => h.1)

theorem Global.Same.eq {c : Labels} {g g' : Global} (h : Global.Same False c g g')
    (hg : g.Bare) : g = g' := by
  cases h with
  | pending h => rw [(Value.Bare.plain hg).eq h]
  | busy h => rw [(Value.Bare.plain hg).eq h]
  | known h => rw [h.eq hg]

/-- Aliases do not lead to anonymous functions. -/
theorem Definitions.Bare.resolve {defs : Definitions} (h : defs.Bare) {name : String}
    (hname : name ≠ "lambda") : defs.resolve name ≠ "lambda" := by
  have hmade : Definitions.MadeOf lambdaFree defs := by
    refine ⟨fun name d hd => ?_, fun name d hd => ?_, h.aliases⟩
    · exact ⟨(h.functions name d hd).formals.madeOf, fun v hv =>
        ((h.functions name d hd).body v hv).madeOf⟩
    · exact ⟨(h.macros name d hd).formals.madeOf, fun v hv =>
        ((h.macros name d hd).body v hv).madeOf⟩
  exact hmade.resolve hname

section Primitives

variable {args : List Value} {f : Primitive}

/-- What primitives return is without functions if their arguments are. -/
theorem Primitive.bare_of {f : Primitive} (hf : f.Composes lambdaFree)
    (hf' : f.Respects ⟨fun _ _ => False, fun _ _ => False⟩) (ha : ∀ a ∈ args, a.Bare) :
    Returns Value.Bare (f args) := by
  obtain ⟨hmade, hplain⟩ := Value.bare_all.2 ha
  intro v hv
  exact ⟨hf args hmade v hv, returns_of_agrees (hf' args args (Value.isPlain_all.2 hplain)) v hv⟩

/-- No primitive makes a function of what is none. -/
theorem Primitive.bare_named {name : String} (h : Primitive.named? name = some f)
    (ha : ∀ a ∈ args, a.Bare) : Returns Value.Bare (f args) :=
  Primitive.bare_of (composes_named h) (respects_named (fun _ _ _ _ h => h.elim) h) ha

theorem Primitive.append_bare (ha : ∀ a ∈ args, a.Bare) :
    Returns Value.Bare (Primitive.append args) :=
  Primitive.bare_of composes_append respects_append ha

end Primitives

/-- Parameters are bound to arguments or lists of them, and to what is not known. -/
theorem LambdaList.bind_bare {formals : Value} {args : List Value} (ha : ∀ a ∈ args, a.Bare) :
    ∀ b ∈ LambdaList.bind formals args, b.2.Bare := by
  have htake : ∀ mode listed (args : List Value), (∀ a ∈ args, a.Bare) →
      (take mode listed args).1.Bare ∧ ∀ a ∈ (take mode listed args).2, a.Bare := by
    intro mode listed args ha
    have hnext : (next args).1.Bare ∧ ∀ a ∈ (next args).2, a.Bare := by
      cases args with
      | nil => exact ⟨Value.bare_nil, List.forall_mem_nil _⟩
      | cons a rest => exact List.forall_mem_cons.1 ha
    cases mode with
    | required =>
      cases listed with
      | false => exact hnext
      | true => exact ⟨Value.bare_unknown, fun a h => ha a (List.mem_of_mem_drop h)⟩
    | optional => exact hnext
    | rest => exact ⟨.ofList ha, List.forall_mem_nil _⟩
    | untracked => exact ⟨Value.bare_unknown, ha⟩
  suffices h : ∀ mode specs (args : List Value), (∀ a ∈ args, a.Bare) →
      ∀ b ∈ bindSpecs mode specs args, b.2.Bare from h _ _ _ ha
  intro mode specs
  induction specs generalizing mode with
  | nil => exact fun _ _ => List.forall_mem_nil _
  | cons spec rest ih =>
    intro args ha
    cases spec with
    | keyword mode => exact ih mode args ha
    | pattern => exact ih mode args ha
    | plain name =>
      obtain ⟨hv, hleft⟩ := htake mode false args ha
      exact List.forall_mem_cons.2 ⟨hv, ih mode _ hleft⟩
    | listed name =>
      obtain ⟨hv, hleft⟩ := htake mode true args ha
      exact List.forall_mem_cons.2 ⟨hv, ih mode _ hleft⟩

end PatternLint
