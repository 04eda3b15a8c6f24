import PatternLint.Primitive.Format
import PatternLint.Proofs.Agreement

/-! Texts that are made from matching values. -/

namespace PatternLint

variable {c : Labels} {v v' x x' : Value} {xs xs' : List Value}

section Print

/-- Printed one after the other, matching items leave the same text and allowance. -/
theorem printAllOnto_agrees {readably : Bool} {calls : Nat}
    (h : List.Forall₂ (fun v v' => ∀ calls out left,
      Agrees Eq (Value.printOnto readably calls out v left)
        (Value.printOnto readably calls out v' left)) xs xs') (out : String) (left : Nat) :
    Agrees Eq (Value.printAllOnto readably calls out xs left)
      (Value.printAllOnto readably calls out xs' left) := by
  induction h generalizing out left with
  | nil => exact .self
  | cons h _ ih => exact (h _ _ left).same fun r => ih r.1 r.2

/-- Printing does not show labels, so matching values have one text. -/
theorem Matches.printOnto (readably : Bool) (h : Matches c v v') : ∀ calls out left,
    Agrees Eq (Value.printOnto readably calls out v left)
      (Value.printOnto readably calls out v' left) := by
  refine h.induction_on ?nil ?str ?int ?float ?sym ?list ?dotted ?vec ?closure ?unknown
  case list =>
    intro xs xs' _ ih calls out left
    cases ih with
    | nil => exact .self
    | cons h hs =>
      rw [Value.printOnto, Value.printOnto]
      refine Agrees.self.same fun calls => Agrees.self.same fun left =>
        Agrees.self.same fun inner => ?_
      exact (h _ _ _).same fun r => (printAllOnto_agrees hs _ _).same fun r => .self
  case dotted =>
    intro xs xs' x x' _ ih _ iht calls out left
    rw [Value.printOnto, Value.printOnto]
    refine Agrees.self.same fun calls => Agrees.self.same fun left =>
      Agrees.self.same fun inner => ?_
    cases ih with
    | nil => exact (iht _ _ _).same fun r => .self
    | cons h hs =>
      refine (h _ _ _).same fun r => (printAllOnto_agrees hs _ _).same fun r => ?_
      exact (iht _ _ _).same fun r => .self
  case vec =>
    intro xs xs' _ ih calls out left
    rw [Value.printOnto, Value.printOnto]
    refine Agrees.self.same fun calls => Agrees.self.same fun left =>
      Agrees.self.same fun inner => ?_
    cases ih with
    | nil => exact .self
    | cons h hs => exact (h _ _ _).same fun r => (printAllOnto_agrees hs _ _).same fun r => .self
  case closure =>
    intro f f' b b' i j k l hf _ hb _ hi hs calls out left
    refine Agrees.self.same fun calls => Agrees.self.same fun left => ?_
    exact .error (Fault.handling_about (.closure hf hb hi hs) _ _)
  all_goals
    intros
    exact .self

theorem Matches.print (readably : Bool) (h : Matches c v v') :
    Agrees Eq (v.print readably) (v'.print readably) :=
  (h.printOnto readably _ _ _).map fun _ _ => congrArg Prod.fst

end Print

namespace Primitive

section Texts

variable {args args' : List Value}

theorem respects_compareNames (test : String → String → Bool) : (compareNames test).Respects c :=
  respects_binary fun _ _ hv _ _ hx => hv.asName.same fun _ => hx.asName.same fun _ =>
    .ok (.ofBool _)

theorem respects_affix (test : List Char → List Char → Bool) : (affix test).Respects c :=
  respects_binaryOr fun _ _ hv _ _ hx _ _ hy => hv.asChars.same fun _ => hx.asChars.same fun _ =>
    .ok (by rw [hy.isNil_eq]; exact .ofBool _)

theorem ofCodes_agrees (h : MatchesAll c xs xs') : Agrees Eq (ofCodes xs) (ofCodes xs') :=
  .mapM_same h fun _ _ hv => hv.asInt.same fun _ => .self

/-- Matching sequences hold the same characters. -/
theorem textOf_agrees (h : Matches c v v') : Agrees Eq (textOf v) (textOf v') := by
  cases h with
  | str text => exact .self
  | _ => exact (Matches.asSequence (c := c) (by constructor <;> assumption)).bind fun _ _ h =>
      ofCodes_agrees h

/-- The same texts are joined, within the bound or not. -/
theorem respects_concat : concat.Respects c := fun _ _ ha =>
  (Agrees.mapM_same ha fun _ _ => textOf_agrees).same fun _ => .ite Iff.rfl .fault
    (.ok (.ofChars _))

/-- Indices that are left out stand for the ends of a sequence. -/
theorem slice_agrees {α : Type} {items items' : List α} {R : α → α → Prop}
    (hi : List.Forall₂ R items items') (hv : Matches c v v') (hx : Matches c x x') :
    Agrees (List.Forall₂ R) (slice items v x) (slice items' v' x') := by
  unfold slice
  rw [hi.length_eq]
  refine (hv.asIntOr 0).same fun i => (hx.asIntOr _).same fun j => .ite Iff.rfl (.ok ?_) .fault
  exact List.forall₂_drop _ (List.forall₂_take _ hi)

/-- Bounds are the same integers, so the same part is cut out. -/
theorem sliceChars_agrees (cs : List Char) (hv : Matches c v v') (hx : Matches c x x') :
    Agrees Eq (slice cs v x) (slice cs v' x') := by
  have hcs : List.Forall₂ Eq cs cs := List.forall₂_same.mpr fun c _ => rfl
  have := slice_agrees hcs hv hx
  rwa [List.forall₂_eq_eq_eq] at this

/-- A part of a vector matches item by item; that of a text is the same. -/
theorem respects_substring : substring.Respects c := by
  refine respects_flexible fun args args' ha => ?_
  rcases ha with _ | ⟨hs, _ | ⟨hstart, _ | ⟨hstop, _ | _⟩⟩⟩
  case cons.cons.cons.nil =>
    cases hs with
    | vec hl => exact (slice_agrees hl hstart hstop).bind fun _ _ h => .ok (.vec h)
    | _ =>
      refine (Matches.asChars (c := c) (by constructor <;> assumption)).same fun cs => ?_
      exact (sliceChars_agrees cs hstart hstop).same fun _ => .ok (.ofChars _)
  case nil => exact .fault
  all_goals cases hs <;> exact .fault

theorem respects_string : string.Respects c := fun _ _ ha =>
  (ofCodes_agrees ha).same fun _ => .ok (.ofChars _)

theorem unary_firstChar : Unary c firstChar := fun v v' hv => by
  refine hv.asChars.same fun cs => ?_
  cases cs with
  | nil => exact .ok (.int 0)
  | cons c cs => exact .ok (.int _)

theorem unary_charText : Unary c charText := fun _ _ hv =>
  hv.asInt.same fun _ => Agrees.self.same fun _ => .ok (.ofChars _)

theorem respects_mapText (f : List Char → List Char) : (mapText f).Respects c :=
  respects_unary fun _ _ hv => hv.asChars.same fun _ => .ok (.ofChars _)

/-- Codes and texts carry no labels. -/
theorem respects_mapCase (f : List Char → List Char) : (mapCase f).Respects c := by
  refine respects_unary fun v v' hv => ?_
  cases hv with
  | int n =>
    refine Agrees.self.same fun c => ?_
    split
    · exact .ok (.int _)
    · exact .ok (.int n)
  | _ =>
    exact (Matches.asChars (c := c) (by constructor <;> assumption)).same fun _ => .ok (.ofChars _)

/-- A list of texts is the same on both sides, or has a fault at the same item. -/
theorem listChars_agrees (h : Matches c v v') :
    Agrees Eq (v.asList >>= fun items => items.mapM Value.asChars)
      (v'.asList >>= fun items => items.mapM Value.asChars) :=
  h.asList.bind fun _ _ h => .mapM_same h fun _ _ h => h.asChars

theorem binary_joinTexts : Binary c joinTexts := by
  intro v v' hv x x' hx
  have hjoin : ∀ sep, Agrees (Matches c)
      (v.asList >>= fun items => items.mapM Value.asChars >>= fun texts =>
        pure (.ofChars (Text.join sep texts)))
      (v'.asList >>= fun items => items.mapM Value.asChars >>= fun texts =>
        pure (.ofChars (Text.join sep texts))) := fun sep => by
    rw [← bind_assoc, ← bind_assoc]
    exact (listChars_agrees hv).same fun _ => .ok (.ofChars _)
  exact .ite (by rw [hx.isNil_eq]) (hjoin []) (hx.asChars.same hjoin)

theorem respects_makeString : makeString.Respects c :=
  respects_binaryOr fun _ _ hv _ _ hx _ _ _ => hv.asInt.same fun _ =>
    .ite Iff.rfl .fault (hx.asInt.same fun _ => Agrees.self.same fun _ => .ok (.ofChars _))

theorem ternary_replaceText : Ternary c replaceText :=
  fun _ _ hv _ _ hx _ _ hy => hv.asChars.same fun _ =>
    .ite Iff.rfl .fault (hy.asChars.same fun _ => hx.asChars.same fun _ => .ok (.ofChars _))

/-- The start of a search counts from the end if it is negative. -/
theorem ternary_searchText : Ternary c searchText := by
  intro v v' hv x x' hx y y' hy
  refine (hy.asIntOr 0).same fun n => hx.asChars.same fun s => hv.asChars.same fun p => ?_
  refine .ite Iff.rfl (.ok .nil) (.ok ?_)
  cases Text.find? p (s.drop (indexFrom s.length n).toNat) with
  | none => exact .nil
  | some k => exact .int _

/-- A number is written alike; one too wide is refused alike. -/
theorem unary_numberText : Unary c numberText := by
  intro v v' hv
  refine hv.asNumber.same fun x => ?_
  cases x with
  | int n => exact Agrees.self.same fun _ => .ok (.str _)
  | float x => exact .ok (.str _)

theorem leadingInt_agrees (isDigit : Char → Bool) (base : Nat) (cs : List Char) :
    Agrees (Matches c) (leadingInt isDigit base cs) (leadingInt isDigit base cs) :=
  .ite Iff.rfl (.ok (.int 0)) (Agrees.self.same fun n => Matches.ofInt n)

/-- The text and its base are the same, and so is the number that they give. -/
theorem binary_parseNumber : Binary c parseNumber := by
  intro v v' hv x x' hx
  refine hv.asChars.same fun cs => (hx.asIntOr 10).same fun base => .ite Iff.rfl ?_ ?_
  · split
    · exact .ok (.float _)
    · exact leadingInt_agrees _ _ _
  · exact .ite Iff.rfl .fault (leadingInt_agrees _ _ _)

/-- Symbols match only themselves. -/
theorem unary_symbolName : Unary c symbolName := by
  intro v v' hv
  refine .ite (by rw [hv.isNil_eq]) (.ok (.str _)) ?_
  cases hv with
  | sym name => exact .ok (.str name)
  | _ => exact Matches.wrongType (c := c) (by constructor <;> assumption) _

theorem ofTexts_agrees (texts : List (List Char)) :
    Agrees (Matches c) (ofTexts texts) (ofTexts texts) := by
  refine Matches.ofItems (List.forall₂_same.mpr fun v hv => ?_)
  obtain ⟨text, -, rfl⟩ := List.mem_map.1 hv
  exact .ofChars text

/-- The text, its separator and what is to be left out are the same. -/
theorem respects_splitText : splitText.Respects c := by
  refine respects_flexible fun args args' ha => ?_
  rcases ha with _ | ⟨hs, _ | ⟨hsep, _ | ⟨homit, _ | ⟨htrim, _ | _⟩⟩⟩⟩
  case cons.cons.cons.cons.nil =>
    refine hs.asChars.same fun cs => .ite (by rw [htrim.isNil_eq]) .fault ?_
    refine .ite (by rw [hsep.isNil_eq]) (ofTexts_agrees _) (hsep.asChars.same fun p => ?_)
    refine .ite Iff.rfl .fault ?_
    rw [homit.isNil_eq]
    exact ofTexts_agrees _
  all_goals exact .fault

/-- A regexp that is given is refused on both sides. -/
theorem trimmed_agrees (trim : (Char → Bool) → List Char → List Char) (s : List Char)
    (h : Matches c v v') : Agrees Eq (trimmed trim s v) (trimmed trim s v') :=
  .ite (by rw [h.isNil_eq]) .self .fault

theorem respects_trimBoth : trimBoth.Respects c := by
  refine respects_flexible fun args args' ha => ?_
  rcases ha with _ | ⟨hs, _ | ⟨hleft, _ | ⟨hright, _ | _⟩⟩⟩
  case cons.cons.cons.nil =>
    refine hs.asChars.same fun cs => (trimmed_agrees _ _ hleft).same fun cs => ?_
    exact (trimmed_agrees _ _ hright).same fun cs => .ok (.ofChars _)
  all_goals exact .fault

theorem respects_trimSide (trim : (Char → Bool) → List Char → List Char) :
    (trimSide trim).Respects c :=
  respects_unaryOr fun _ _ hv _ _ hx => hv.asChars.same fun _ =>
    (trimmed_agrees _ _ hx).same fun _ => .ok (.ofChars _)

theorem unary_charset : Unary c charset := fun _ _ hv =>
  hv.asSequence.bind fun _ _ hxs => (Agrees.mapM_same hxs fun _ _ hv => hv.asInt).same fun _ =>
    Agrees.self.same fun _ => .ok (.ofChars _)

/-- How alternatives are grouped is named by a symbol. -/
theorem groupingOf_eq (h : Matches c v v') : groupingOf v = groupingOf v' := by
  have hnil := h.isNil_eq
  cases h <;> simp_all [groupingOf]

theorem respects_alternatives : alternatives.Respects c := by
  refine respects_flexible fun args args' ha => ?_
  rcases ha with _ | ⟨htexts, _ | ⟨hparen, _ | ⟨horder, _ | _⟩⟩⟩
  case cons.cons.cons.nil =>
    refine htexts.asList.bind fun xs xs' hxs => ?_
    refine (Agrees.mapM_same hxs fun _ _ hv => hv.asChars).same fun texts => ?_
    rw [groupingOf_eq hparen, horder.isNil_eq]
    exact Agrees.self.same fun _ => .ok (.ofChars _)
  all_goals exact .fault

theorem unary_groupDepth : Unary c groupDepth := fun _ _ hv =>
  hv.asChars.same fun _ => .ok (.int _)

end Texts

section Formats

/-- What follows a step that is made in one of two ways. -/
theorem either_agrees {α β : Type} {B : β → β → Prop} {p : Prop} [Decidable p]
    {r s : Except Fault α} {k k' : α → Except Fault β} (hk : ∀ a, Agrees B (k a) (k' a)) :
    Agrees B (if p then r >>= k else s >>= k) (if p then r >>= k' else s >>= k') :=
  .ite Iff.rfl (Agrees.self.same hk) (Agrees.self.same hk)

/-- A conversion takes a number or prints its argument, which shows no labels. -/
theorem convert_agrees (spec : Spec) (h : Matches c v v') :
    Agrees Eq (convert spec v) (convert spec v') := by
  refine either_agrees fun width => ?_
  refine .ite Iff.rfl .fault (Agrees.self.same fun precision => ?_)
  refine .ite Iff.rfl .fault ?_
  dsimp only
  split
  · exact (h.print false).same fun _ => .self
  · exact (h.print true).same fun _ => .self
  · exact h.asInt.same fun _ => .self
  all_goals
    first
    | exact h.asNumber.same fun _ => .self
    | exact .fault

/-- The argument at an index, counted alike on both sides. -/
theorem argument_agrees (h : MatchesAll c xs xs') (index : Int) :
    Agrees (Matches c) (argument xs index) (argument xs' index) := by
  have hitem : Option.Rel (Matches c)
      (if index < 0 then xs.getLast? else xs[index.toNat]?)
      (if index < 0 then xs'.getLast? else xs'[index.toNat]?) := by
    rw [List.getLast?_eq_getElem?, List.getLast?_eq_getElem?, h.length_eq]
    split <;> exact h.getElem? _
  refine .ite (by rw [h.length_eq]) .fault ?_
  generalize ite (index < 0) xs.getLast? _ = item at hitem ⊢
  generalize ite (index < 0) xs'.getLast? _ = item' at hitem ⊢
  cases hitem with
  | none => exact .fault
  | some hv => exact .ok hv

section Percent

variable {next next' index : Int} {rest after : List Char} {spec : Spec}

theorem formatFrom_fault {f : Fault} (h : directive next rest = .error f) (args : List Value)
    (out : List Char) : formatFrom args out next ('%' :: rest) = .error f := by
  rw [formatFrom]
  split
  all_goals
    rename_i hd
    rw [h] at hd
    cases hd
  rfl

theorem formatFrom_mark (h : directive next rest = .ok (.percent, next', after))
    (args : List Value) (out : List Char) :
    formatFrom args out next ('%' :: rest) = formatFrom args ('%' :: out) next' after := by
  rw [formatFrom]
  split
  all_goals
    rename_i hd
    rw [h] at hd
    cases hd
  rfl

/-- A directive that takes an argument converts it and goes on behind. -/
theorem formatFrom_argument (h : directive next rest = .ok (.argument index spec, next', after))
    (args : List Value) (out : List Char) :
    formatFrom args out next ('%' :: rest) =
      (argument args index >>= convert spec) >>= fun text =>
        formatFrom args (text.reverse ++ out) next' after := by
  rw [formatFrom]
  split
  all_goals
    rename_i hd
    rw [h] at hd
    cases hd
  rcases argument args index with f | arg
  · rfl
  · have hbind : (Except.ok arg >>= convert spec) = convert spec arg := rfl
    rw [hbind]
    dsimp only
    rcases convert spec arg with f | text
    · rfl
    · rfl

end Percent

/-- The induction is on the format, which is the same text on both sides. -/
theorem formatFrom_agrees (h : MatchesAll c xs xs') (out : List Char) (next : Int)
    (cs : List Char) : Agrees Eq (formatFrom xs out next cs) (formatFrom xs' out next cs) := by
  induction hn : cs.length using Nat.strongRecOn generalizing out next cs with
  | _ n ih =>
    subst hn
    rcases cs with _ | ⟨c, rest⟩
    · rw [formatFrom, formatFrom]
      exact .ok rfl
    · by_cases hc : c = '%'
      · subst hc
        rcases hd : directive next rest with f | ⟨_ | ⟨index, spec⟩, next', after⟩
        · rw [formatFrom_fault hd, formatFrom_fault hd]
          exact .fault
        · have := directive_shorter hd
          rw [formatFrom_mark hd, formatFrom_mark hd]
          exact ih _ (Nat.lt_succ_of_lt this) _ _ _ rfl
        · have := directive_shorter hd
          rw [formatFrom_argument hd, formatFrom_argument hd]
          refine Agrees.same ?_ fun text => ih _ (Nat.lt_succ_of_lt this) _ _ _ rfl
          exact (argument_agrees h index).bind fun _ _ hv => convert_agrees spec hv
      · rw [formatFrom, formatFrom]
        · exact ih _ (Nat.lt_succ_self _) _ _ _ rfl
        · exact hc
        · exact hc

theorem respects_format : format.Respects c :=
  respects_leading fun _ _ hv _ _ hxs => hv.asChars.same fun _ =>
    (formatFrom_agrees hxs _ _ _).same fun _ => .ite Iff.rfl .fault (.ok (.ofChars _))

end Formats

end Primitive

end PatternLint
