import PatternLint.Rx.Write
import PatternLint.Proofs.Agreement

/-! Structured regexps of matching forms are the same. -/

namespace PatternLint.Rx

variable {c : Labels} {v v' : Value} {vs vs' : List Value} {name : String}

theorem aboutRx_agrees {α : Type} {A : α → α → Prop} (h : Matches c v v') (f f' : RxFault) :
    Agrees A (.error (Fault.aboutRx v f)) (.error (Fault.aboutRx v' f')) := by
  refine .error ?_
  simp only [Fault.aboutRx, h.isDisplayable_eq]
  split <;> rfl

theorem charCode_agrees (h : Matches c v v') : Agrees Eq (charCode v) (charCode v') := by
  cases h with
  | str text => exact .self
  | int n => exact .self
  | _ => exact aboutRx_agrees (c := c) (by constructor <;> assumption) _ _

theorem argument_agrees (h : Matches c v v') : Agrees Eq (argument v) (argument v') := by
  cases h with
  | dotted hs ht =>
    rcases hs with _ | ⟨hx, _ | ⟨hy, hs⟩⟩
    · exact aboutRx_agrees (.dotted .nil ht) _ _
    · exact (charCode_agrees hx).same fun _ => (charCode_agrees ht).same fun _ => .self
    · exact aboutRx_agrees (.dotted (.cons hx (.cons hy hs)) ht) _ _
  | str text => exact .self
  | int n => exact .self
  | sym name => exact .self
  | _ => exact aboutRx_agrees (c := c) (by constructor <;> assumption) _ _

theorem ofArguments_agrees (h : MatchesAll c vs vs') :
    Agrees Eq (CharSet.ofArguments vs) (CharSet.ofArguments vs') :=
  (Agrees.mapM_same h fun _ _ => argument_agrees).same fun _ => .self

theorem count_agrees (h : Matches c v v') : Agrees Eq (count v) (count v') := by
  cases h with
  | int n => exact .self
  | _ => exact aboutRx_agrees (c := c) (by constructor <;> assumption) _ _

theorem syntaxCode_agrees (h : Matches c v v') : Agrees Eq (syntaxCode v) (syntaxCode v') := by
  cases h with
  | sym name => exact .self
  | _ => exact aboutRx_agrees (c := c) (by constructor <;> assumption) _ _

theorem categoryCode_agrees (h : Matches c v v') :
    Agrees Eq (categoryCode v) (categoryCode v') := by
  cases h with
  | int n => exact .self
  | _ => exact aboutRx_agrees (c := c) (by constructor <;> assumption) _ _

theorem operatorName_agrees (h : Matches c v v') :
    Agrees Eq (operatorName v) (operatorName v') := by
  cases h with
  | sym name => exact .self
  | int n => exact .self
  | _ => exact aboutRx_agrees (c := c) (by constructor <;> assumption) _ _

theorem negateAtom_agrees (h : Matches c v v') : Agrees Eq (negateAtom v) (negateAtom v') := by
  cases h with
  | sym name => exact .self
  | int n => exact .self
  | str text => exact .self
  | _ => exact aboutRx_agrees (c := c) (by constructor <;> assumption) _ _

theorem texts?_eq (h : MatchesAll c vs vs') : texts? vs = texts? vs' := by
  induction h with
  | nil => rfl
  | cons h _ ih =>
    simp only [texts?, List.mapM_cons] at ih ⊢
    rw [ih]
    cases h <;> rfl

/-- Forms whose regexps, and those of their negations, are the same. -/
def WritesAlike (v v' : Value) : Prop :=
  ∀ greedy, Agrees Eq (write greedy v) (write greedy v') ∧
    Agrees Eq (negate greedy v) (negate greedy v')

theorem writeAll_agrees (h : List.Forall₂ WritesAlike vs vs') (greedy : Bool) :
    Agrees Eq (writeAll greedy vs) (writeAll greedy vs') := by
  induction h with
  | nil => exact .self
  | cons h _ ih =>
    rw [writeAll, writeAll]
    exact (h greedy).1.same fun _ => ih.same fun _ => .self

/-- A count, and forms after it. -/
theorem counted_agrees (hv : Matches c v v') (h : List.Forall₂ WritesAlike vs vs') (greedy : Bool)
    (k : Nat → List Item → Except Fault Item) :
    Agrees Eq (count v >>= fun n => writeAll greedy vs >>= k n)
      (count v' >>= fun n => writeAll greedy vs' >>= k n) :=
  (count_agrees hv).same fun _ => (writeAll_agrees h greedy).same fun _ => .self

theorem numbered_agrees (hv : Matches c v v') (h : List.Forall₂ WritesAlike vs vs')
    (greedy : Bool) : Agrees Eq (writeBy greedy name .numberedGroup (v :: vs))
      (writeBy greedy name .numberedGroup (v' :: vs')) := by
  refine (count_agrees hv).same fun n => .ite Iff.rfl .fault ?_
  exact Agrees.self.same fun _ => (writeAll_agrees h greedy).same fun _ => .self

theorem writeAtom?_agrees (h : MatchesAll c vs vs') (operator : Operator) :
    Option.Rel (Agrees Eq) (writeAtom? operator vs) (writeAtom? operator vs') := by
  have htexts : Option.Rel (Agrees Eq) (writeAtom? .or vs) (writeAtom? .or vs') := by
    simp only [writeAtom?, texts?_eq h]
    cases texts? vs' with
    | none => exact .none
    | some texts => exact .some .self
  have hset : Option.Rel (Agrees Eq) (writeAtom? .set vs) (writeAtom? .set vs') :=
    .some ((ofArguments_agrees h).same fun _ => .self)
  rcases h with _ | ⟨hx, _ | ⟨hy, h⟩⟩
  · cases operator with
    | or => exact htexts
    | set => exact hset
    | _ => exact .none
  · cases operator with
    | or => exact htexts
    | set => exact hset
    | backReference => exact .some ((count_agrees hx).same fun _ => .self)
    | syntaxClass => exact .some ((syntaxCode_agrees hx).same fun _ => .self)
    | category => exact .some ((categoryCode_agrees hx).same fun _ => .self)
    | literal =>
      cases hx with
      | str text => exact .some .self
      | _ => exact .none
    | regexp =>
      cases hx with
      | str text => exact .some .self
      | _ => exact .none
    | _ => exact .none
  · cases operator with
    | or => exact htexts
    | set => exact hset
    | literal => cases hx <;> exact .none
    | regexp => cases hx <;> exact .none
    | _ => exact .none

theorem writeBy_agrees (h : MatchesAll c vs vs') (hw : List.Forall₂ WritesAlike vs vs')
    (greedy : Bool) (name : String) (operator : Operator) :
    Agrees Eq (writeBy greedy name operator vs) (writeBy greedy name operator vs') := by
  rcases h with _ | ⟨hx, _ | ⟨hy, h⟩⟩
  · cases operator <;> exact .fault
  · obtain _ | ⟨wx, _⟩ := hw
    cases operator with
    | not => exact (wx greedy).2
    | exactly => exact counted_agrees hx .nil greedy _
    | atLeast => exact counted_agrees hx .nil greedy _
    | counted => exact counted_agrees hx .nil greedy _
    | numberedGroup => exact numbered_agrees hx .nil greedy
    | minimal => exact (wx false).1
    | maximal => exact (wx true).1
    | _ => exact .fault
  · obtain _ | ⟨-, _ | ⟨wy, hw⟩⟩ := hw
    cases operator with
    | exactly => exact counted_agrees hx (.cons wy hw) greedy _
    | atLeast => exact counted_agrees hx (.cons wy hw) greedy _
    | numberedGroup => exact numbered_agrees hx (.cons wy hw) greedy
    | between => exact (count_agrees hx).same fun n => counted_agrees hy hw greedy _
    | counted =>
      cases hy with
      | int m => exact (count_agrees hx).same fun n => counted_agrees (.int (c := c) m) hw greedy _
      | _ => exact counted_agrees hx (.cons wy hw) greedy _
    | _ => exact .fault

theorem write_operator (h : MatchesAll c vs vs') (hw : List.Forall₂ WritesAlike vs vs')
    (hv : Matches c v v') (greedy : Bool) :
    Agrees Eq (write greedy (.list (v :: vs))) (write greedy (.list (v' :: vs'))) := by
  rw [write, write]
  refine (operatorName_agrees hv).same fun name => ?_
  cases operators.lookup name with
  | none => exact .fault
  | some operator =>
    have hatom := writeAtom?_agrees h operator
    dsimp only
    generalize writeAtom? operator vs = item at hatom ⊢
    generalize writeAtom? operator vs' = item' at hatom ⊢
    cases hatom with
    | some hitem => exact hitem
    | none =>
      dsimp only
      split
      · exact (writeAll_agrees hw greedy).same fun _ => .self
      · exact writeBy_agrees h hw greedy name operator

theorem negate_operator (h : MatchesAll c vs vs') (hw : List.Forall₂ WritesAlike vs vs')
    (hv : Matches c v v') (greedy : Bool) :
    Agrees Eq (negate greedy (.list (v :: vs))) (negate greedy (.list (v' :: vs'))) := by
  have hbad : ∀ {A : Item → Item → Prop},
      Agrees A (.error (Fault.aboutRx (.list (v :: vs)) (.badNegation (.list (v :: vs)))))
        (.error (Fault.aboutRx (.list (v' :: vs')) (.badNegation (.list (v' :: vs'))))) :=
    aboutRx_agrees (.list (.cons hv h)) _ _
  cases hv with
  | sym name =>
    unfold negate
    cases operators.lookup name with
    | none => exact hbad
    | some operator =>
      rcases h with _ | ⟨hx, _ | ⟨hy, h⟩⟩
      · cases operator with
        | set => exact .self
        | _ => exact hbad
      · obtain _ | ⟨wx, _⟩ := hw
        cases operator with
        | set => exact (ofArguments_agrees (.cons hx .nil)).same fun _ => .self
        | not => exact (wx greedy).1
        | syntaxClass => exact (syntaxCode_agrees hx).same fun _ => .self
        | category => exact (categoryCode_agrees hx).same fun _ => .self
        | _ => exact hbad
      · cases operator with
        | set => exact (ofArguments_agrees (.cons hx (.cons hy h))).same fun _ => .self
        | _ => exact hbad
  | _ => exact hbad

theorem writesAlike (h : Matches c v v') : WritesAlike v v' := by
  refine h.induction_on ?nil ?str ?int ?float ?sym ?list ?dotted ?vec ?closure ?unknown
  case list =>
    intro vs vs' h hw greedy
    rcases h with _ | ⟨hv, h⟩
    · exact ⟨.self, aboutRx_agrees (c := c) (.list .nil) _ _⟩
    · obtain _ | ⟨-, hw⟩ := hw
      exact ⟨write_operator h hw hv greedy, negate_operator h hw hv greedy⟩
  case dotted =>
    intro vs vs' x x' h _ hx _ greedy
    exact ⟨aboutRx_agrees (.dotted h hx) _ _, negateAtom_agrees (.dotted h hx)⟩
  case vec =>
    intro vs vs' h _ greedy
    exact ⟨aboutRx_agrees (.vec h) _ _, negateAtom_agrees (.vec h)⟩
  case closure =>
    intro f f' b b' i j k l hf _ hb _ hi hs greedy
    exact ⟨aboutRx_agrees (.closure hf hb hi hs) _ _, negateAtom_agrees (.closure hf hb hi hs)⟩
  all_goals
    intros
    exact fun greedy => ⟨.self, .self⟩

theorem ofForms_agrees (h : MatchesAll c vs vs') : Agrees Eq (ofForms vs) (ofForms vs') :=
  (writeAll_agrees (List.Forall₂.imp (fun _ _ => writesAlike) h) true).same fun _ => .self

theorem ofForm_agrees (h : Matches c v v') (noGroup : Bool) :
    Agrees Eq (ofForm v noGroup) (ofForm v' noGroup) :=
  (writesAlike h true).1.same fun _ => .self

end PatternLint.Rx
