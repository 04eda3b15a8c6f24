import PatternLint.Proofs.SettlingEval
import PatternLint.Reader.Toplevel

/-! Lists are of one shape everywhere. The empty list is always `nil`, and what a dotted list ends
in is no list: so it is in all data that are read, and evaluation keeps it so. -/

namespace PatternLint

namespace Reader

variable {m : Material} (hm : ∀ name, m.symbol name)

/-- Labels for data of a material. -/
def Labels.MadeOf (m : Material) (labels : Labels) : Prop :=
  ∀ l ∈ labels, l.2.MadeOf m

/-- What has been read, and all that is labelled, is of one kind. -/
def Reads {α : Type} (m : Material) (A : α → Prop) (r : Reading α) : Prop :=
  A r.value ∧ r.labels.MadeOf m

include hm

theorem atomValue_madeOf (text : String) (escaped : Bool) :
    Returns (Value.MadeOf m) (atomValue text escaped) := by
  refine .ite (fun _ => .ok (.sym (hm _))) fun _ => .ite (fun _ => .ok .nil) fun _ => ?_
  refine .ite (fun _ => ?_) fun _ => ?_
  · exact Returns.map (A := fun _ => True) (fun _ _ => True.intro) fun _ _ => .int
  · split
    · exact .ok .float
    · exact .ok (.sym (hm _))

/-- All that a bound lets reading do, by what one less lets it do. -/
theorem reading_madeOf (bound : Nat) :
    (∀ labels tok c, Labels.MadeOf m labels →
      Returns (Reads m (Value.MadeOf m)) (datumFrom bound labels tok c)) ∧
    (∀ origin items labels c, (∀ v ∈ items, v.MadeOf m) → Labels.MadeOf m labels →
      Returns (Reads m (Value.MadeOf m)) (listFrom bound origin items labels c)) ∧
    ∀ origin closer items labels c, (∀ v ∈ items, v.MadeOf m) → Labels.MadeOf m labels →
      Returns (Reads m fun items => ∀ v ∈ items, v.MadeOf m)
        (itemsFrom bound origin closer items labels c) := by
  have hreverse : ∀ {items : List Value}, (∀ v ∈ items, v.MadeOf m) →
      ∀ v ∈ items.reverse, v.MadeOf m :=
    fun h v hv => h v (List.mem_reverse.1 hv)
  induction bound with
  | zero => exact ⟨fun _ _ _ _ => .error, fun _ _ _ _ _ _ => .error, fun _ _ _ _ _ _ _ => .error⟩
  | succ bound ih =>
    obtain ⟨hdatum, hlist, hitems⟩ := ih
    refine ⟨fun labels tok c hl => ?_, fun origin items labels c hi hl => ?_,
      fun origin closer items labels c hi hl => ?_⟩
    · rw [datumFrom]
      split
      case h_1 => exact (atomValue_madeOf hm _ _).map fun v hv => ⟨hv, hl⟩
      case h_2 => exact .ok ⟨.str, hl⟩
      case h_3 => exact .ok ⟨.int, hl⟩
      case h_4 => exact .ok ⟨.int, hl⟩
      case h_5 s =>
        refine .after ?_
        rintro ⟨t, next⟩
        refine (hdatum labels t next hl).bind fun r hr => .ret ⟨?_, hr.2⟩
        refine .list ?_ fun _ => List.cons_ne_nil _ _
        exact List.forall_mem_cons.2 ⟨.sym (hm _), List.forall_mem_singleton.2 hr.1⟩
      case h_6 => exact hlist _ _ _ _ (List.forall_mem_nil _) hl
      case h_7 =>
        refine (hitems _ _ _ _ _ (List.forall_mem_nil _) hl).bind fun r hr => ?_
        split
        · rename_i v hv
          unfold firstString? at hv
          split at hv
          · cases hv
            exact .ret ⟨.str, hr.2⟩
          · cases hv
        · exact .error
      case h_8 =>
        refine (hitems _ _ _ _ _ (List.forall_mem_nil _) hl).bind fun r hr => ?_
        exact .ret ⟨.vec hr.1, hr.2⟩
      case h_9 =>
        refine .after ?_
        rintro ⟨t, next⟩
        refine (hdatum labels t next hl).bind fun r hr => ?_
        split
        · exact .ret ⟨.vec (List.forall_mem_nil _), hr.2⟩
        · exact .error
      case h_10 =>
        refine .after ?_
        rintro ⟨t, next⟩
        refine (hdatum labels t next hl).bind fun r hr => ?_
        exact .ret ⟨hr.1, List.forall_mem_cons.2 ⟨hr.1, hr.2⟩⟩
      case h_11 label =>
        split
        · rename_i v hv
          exact .ok ⟨hl _ (mem_of_lookup hv), hl⟩
        · exact .error
      all_goals exact .error
    · rw [listFrom]
      refine .after fun o => ?_
      split
      · exact .error
      · split
        · exact .ret ⟨.ofList (hreverse hi), hl⟩
        · exact .error
        · refine .ite (fun _ => .error) fun _ => ?_
          refine .after ?_
          rintro ⟨t, next⟩
          refine (hdatum labels t next hl).bind fun r hr => .after fun o => ?_
          split
          · exact .ret ⟨.prepend (hreverse hi) hr.1, hr.2⟩
          · exact .error
        · refine (hdatum labels _ _ hl).bind fun r hr => ?_
          exact hlist _ _ _ _ (List.forall_mem_cons.2 ⟨hr.1, hi⟩) hr.2
    · rw [itemsFrom]
      refine .after fun o => ?_
      split
      · exact .error
      · split
        · exact .ite (fun _ => .ret ⟨hreverse hi, hl⟩) fun _ => .error
        · refine (hdatum labels _ _ hl).bind fun r hr => ?_
          exact hitems _ _ _ _ _ (List.forall_mem_cons.2 ⟨hr.1, hi⟩) hr.2

theorem datum_madeOf (size : Nat) (c : Cursor) :
    Returns (fun r => r.1.MadeOf m) (datum size c) := by
  refine .after fun (tok, next) => ?_
  refine ((reading_madeOf hm _).1 [] tok next (List.forall_mem_nil _)).bind fun r hr => ?_
  exact .ret hr.1

theorem readFrom_madeOf (size bound : Nat) (forms : List (Value × Nat)) (c : Cursor)
    (hf : ∀ f ∈ forms, f.1.MadeOf m) :
    ∀ f ∈ (readFrom size bound forms c).forms, f.1.MadeOf m := by
  have hreverse : ∀ {forms : List (Value × Nat)}, (∀ f ∈ forms, f.1.MadeOf m) →
      ∀ f ∈ forms.reverse, f.1.MadeOf m :=
    fun h f hf => h f (List.mem_reverse.1 hf)
  induction bound generalizing forms c with
  | zero => exact hreverse hf
  | succ bound ih =>
    rw [readFrom]
    split
    · exact hreverse hf
    · rename_i here _
      split
      · exact hreverse hf
      · split
        · rename_i v next hdatum
          exact ih _ _ (List.forall_mem_cons.2 ⟨datum_madeOf hm size here _ hdatum, hf⟩)
        · split
          · exact ih _ _ hf
          · exact hreverse hf
        · exact hreverse hf

/-- Data that are read are made of any material that has all symbols. -/
theorem read_madeOf (text : List Char) : ∀ f ∈ (read text).forms, f.1.MadeOf m :=
  readFrom_madeOf hm _ _ _ _ (List.forall_mem_nil _)

end Reader

/-- Anything in lists of the canonical shape. -/
def Material.canonical : Material where
  symbol _ := True
  unknown := True
  runs := True
  proper := True
  symbol_t := True.intro
  runs_lambda := id
  runs_rxToString := id

/-- Evaluation in a fresh frame keeps to a material in which values may have unknown parts. -/
theorem evaluate_madeOf {m : Material} {expr : Value} {env : Option FrameId}
    {mutables : List String} {defs : Definitions} {loopLimit : Nat} {s : Store} (hm : m.unknown)
    (hexpr : expr.MadeOf m) (hdefs : defs.MadeOf m) (hs : s.MadeOf m) :
    (evaluate expr env mutables defs loopLimit s).2.MadeOf m ∧
      Returns (Value.MadeOf m) (evaluate expr env mutables defs loopLimit s).1 := by
  have hev := steady_evalBy .tooDeep hdefs (binds_plain hm) maxDepth Set.univ []
  have hkeeps := keeps_within (fun frame scope hat => hev expr frame scope hexpr hat) .unknown env
    mutables loopLimit
  obtain ⟨ht, hr⟩ := hkeeps.run hs.within
  exact ⟨ht.toMadeOf, hr.mono fun v hv => hv.madeOf_of_unknown hm⟩

theorem evaluate_ok_madeOf {m : Material} {expr v : Value} {env : Option FrameId}
    {mutables : List String} {defs : Definitions} {loopLimit : Nat} {s t : Store} (hm : m.unknown)
    (hexpr : expr.MadeOf m) (hdefs : defs.MadeOf m) (hs : s.MadeOf m)
    (hrun : evaluate expr env mutables defs loopLimit s = (.ok v, t)) :
    t.MadeOf m ∧ v.MadeOf m := by
  have hmade : (evaluate expr env mutables defs loopLimit s).2.MadeOf m ∧
      Returns (Value.MadeOf m) (evaluate expr env mutables defs loopLimit s).1 :=
    evaluate_madeOf hm hexpr hdefs hs
  rw [hrun] at hmade
  exact ⟨hmade.1, hmade.2 v rfl⟩

theorem evaluateList_madeOf {m : Material} {expr : Value} {env : Option FrameId}
    {mutables : List String} {defs : Definitions} {loopLimit : Nat} {s : Store} (hm : m.unknown)
    (hexpr : expr.MadeOf m) (hdefs : defs.MadeOf m) (hs : s.MadeOf m) :
    (evaluateList expr env mutables defs loopLimit s).2.MadeOf m ∧
      Returns (Value.MadeOf m) (evaluateList expr env mutables defs loopLimit s).1 := by
  have hev := solid_evalStructure .tooDeep hdefs (binds_plain hm) maxDepth 0 Set.univ []
  have hkeeps := keeps_within (fun frame scope hat => hev expr frame scope hexpr hat) .nil env
    mutables loopLimit
  obtain ⟨ht, hr⟩ := hkeeps.run hs.within
  exact ⟨ht.toMadeOf, hr⟩

/-- Every list in what is read, and in what evaluation makes of canonical data, is canonical. -/
theorem lists_canonical :
    (∀ text, ∀ form ∈ (Reader.read text).forms, form.1.MadeOf .canonical) ∧
    ∀ (expr : Value) (env : Option FrameId) (mutables : List String) (defs : Definitions)
      (loopLimit : Nat) (s t : Store) (v : Value), expr.MadeOf .canonical →
      defs.MadeOf .canonical → s.MadeOf .canonical →
      evaluate expr env mutables defs loopLimit s = (.ok v, t) ∨
        evaluateList expr env mutables defs loopLimit s = (.ok v, t) →
      v.MadeOf .canonical ∧ t.MadeOf .canonical := by
  refine ⟨Reader.read_madeOf fun _ => True.intro, ?_⟩
  intro expr env mutables defs loopLimit s t v hexpr hdefs hs hrun
  rcases hrun with hrun | hrun
  · obtain ⟨ht, hv⟩ := evaluate_madeOf True.intro hexpr hdefs hs
    rw [hrun] at ht hv
    exact ⟨hv v rfl, ht⟩
  · obtain ⟨ht, hv⟩ := evaluateList_madeOf True.intro hexpr hdefs hs
    rw [hrun] at ht hv
    exact ⟨hv v rfl, ht⟩

/-- The form `(append '(1) 'x)`. -/
def appendToAtom : Value :=
  .list [.sym "append", .list [.sym "quote", .list [.int 1]], .list [.sym "quote", .sym "x"]]

theorem appendToAtom_canonical :
    evaluate appendToAtom none [] .empty 1000 .empty =
        (.ok (.dotted [.int 1] (.sym "x")), ⟨#[⟨.empty, none⟩], 0, .empty⟩) ∧
      (Value.dotted [.int 1] (.sym "x")).MadeOf .canonical := by
  have hrun : evaluate appendToAtom none [] .empty 1000 .empty =
      (.ok (.dotted [.int 1] (.sym "x")), ⟨#[⟨.empty, none⟩], 0, .empty⟩) := by
    rfl
  have hexpr : appendToAtom.MadeOf .canonical := by simp [appendToAtom, Material.canonical]
  have h := lists_canonical.2 appendToAtom none [] .empty 1000 .empty _ _ hexpr .empty .empty
    (.inl hrun)
  exact ⟨hrun, h.1⟩

end PatternLint
