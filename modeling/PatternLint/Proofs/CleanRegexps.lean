import PatternLint.Proofs.WrittenPhrases

/-! The linter has nothing to say about a regexp that is written for characters, sets, groups,
choices and repetitions, apart from the reversed range that stands for all characters. -/

namespace PatternLint.Rx

open Pattern.Regexp

/-- A form that stands for characters. It gives no regexp as text, its symbols match characters, its
numbers are codes where they are taken for codes, and its set is written as it is meant. -/
structure Tangible (form : Value) : Prop where
  given : operator? form ≠ some .regexp
  symbol : ∀ name, form = .sym name →
    name ∈ ["nonl", "not-newline", "anychar", "anything"] ∨ (className? name).isSome
  clear : operator? form = some .set → ∀ set, CharSet.ofArguments (arguments form) = .ok set →
    ¬ set.StrayHyphen
  members : operator? form = some .set → ∀ v ∈ arguments form, ∀ part, argument v = .ok part →
    ∀ p ∈ part.1, IsCode p.1 ∧ IsCode p.2
  excluded : operator? form = some .not → ∀ v ∈ arguments form, ∀ code, charCode v = .ok code →
    IsCode code

/-- A form that is written as the regexp of all characters. -/
inductive Everything : Value → Prop
  | anychar : Everything (.sym "anychar")
  | anything : Everything (.sym "anything")
  | notNothing {form arg : Value} (hop : operator? form = some .not) (harg : arguments form = [arg])
      (hset : operator? arg = some .set)
        (hnone : CharSet.ofArguments (arguments arg) = .ok ⟨[], []⟩) :
      Everything form

variable {may : Issue → Prop} {anchored : Prop} {item : Item} {items : List Item} {name : String}
  {form : Value} {forms : List Value} {r : String}

theorem Throughout.and {P Q : Value → Prop} (hP : Throughout P form) (hQ : Throughout Q form) :
    Throughout (fun form => P form ∧ Q form) form := by
  induction hP with
  | mk hP _ ih =>
    obtain ⟨hQ, hargs⟩ := hQ
    exact ⟨⟨hP, hQ⟩, fun a ha => ih a ha (hargs a ha)⟩

/-- Without anchors, no item shows one. -/
theorem joinable_unanchored (hno : ¬ anchored) : Joinable may anchored items where
  opens _ _ := fun ⟨_, _, hphrase⟩ => absurd (hphrase.unanchored hno).1 nofun
  closes _ _ := fun ⟨_, _, hphrase⟩ => absurd (hphrase.unanchored hno).2 nofun

theorem symbols_no_class (h : (className? name).isSome) : symbols.lookup name = none := by
  have hall : ∀ e ∈ classNames, symbols.lookup e.1 = none := by decide
  obtain ⟨c, hc⟩ := Option.isSome_iff_exists.mp h
  obtain ⟨before, after, heq, -⟩ := List.lookup_eq_some_iff.mp hc
  exact hall _ (heq ▸ List.mem_append_right _ List.mem_cons_self)

theorem Tangible.held_symbol (h : Tangible (.sym name))
    (hall : Everything (.sym name) → may allReversed)
    (hitem : symbolItem name = .ok item) : Held may anchored item := by
  have hdot : OneToken may .item ['.'] := oneToken_dot
  unfold symbolItem at hitem
  obtain hname | hclass := h.symbol name rfl
  · simp only [List.mem_cons, List.not_mem_nil, or_false] at hname
    rcases hname with rfl | rfl | rfl | rfl <;> cases hitem
    · exact held_atom hdot (.inl rfl)
    · exact held_atom hdot (.inl rfl)
    · exact held_atom (oneToken_anyChar (hall .anychar)) (.inl rfl)
    · exact held_atom (oneToken_anyChar (hall .anything)) (.inl rfl)
  · rw [symbols_no_class hclass] at hitem
    dsimp only at hitem
    split at hitem
    · rename_i hclass
      cases hitem
      exact held_atom (oneToken_class (className?_known hclass) false) (.inl rfl)
    · cases hitem

theorem Tangible.proper (h : Tangible form) (hop : operator? form = some .set) {set : CharSet}
    (hset : CharSet.ofArguments (arguments form) = .ok set) : set.Proper :=
  proper_ofArguments hset (h.members hop)

theorem Tangible.fit (h : Tangible form) (hargs : ∀ a ∈ arguments form, Tangible a)
    (hall : Everything form → may allReversed) : Fit may False form where
  symbol name item hform hitem := by
    subst hform
    exact h.held_symbol hall hitem
  operator operator hop := {
    given := by
      rintro rfl
      exact h.given hop
    set := by
      rintro rfl set item hset hitem
      have hproper := h.proper hop hset
      exact held_false (phrase_render hitem hproper.apart hproper.known (h.clear hop set hset) nofun
        (.inl hproper))
    complement := by
      rintro rfl arg set item harg hset hof hitem
      have hmem : arg ∈ arguments form := harg ▸ List.mem_cons_self
      have hproper := (hargs arg hmem).proper hset hof
      refine held_false (phrase_render hitem hproper.apart hproper.known
        ((hargs arg hmem).clear hset set hof) (fun _ hnone => ?_) (.inl hproper))
      exact hall (.notNothing hop harg hset (hnone ▸ hof))
    negation := by
      rintro rfl arg item harg hitem
      have hmem : arg ∈ arguments form := harg ▸ List.mem_cons_self
      refine held_negateAtom hitem (fun hboundary => ?_) (.inl (h.excluded hop arg hmem))
      exact absurd ((hargs arg hmem).symbol _ hboundary) (by decide)
    joinable := fun _ _ _ => joinable_unanchored id }

/-! ### Forms that stand for characters -/

theorem tangible_str {text : String} : Tangible (.str text) :=
  ⟨nofun, nofun, nofun, nofun, nofun⟩

theorem tangible_int {n : Int} : Tangible (.int n) :=
  ⟨nofun, nofun, nofun, nofun, nofun⟩

theorem tangible_list {forms : List Value} {operator : Operator}
    (hop : operator? (.list forms) = some operator) (h : operator ∉ [.regexp, .set, .not]) :
    Tangible (.list forms) := by
  simp only [List.mem_cons, List.not_mem_nil, or_false, not_or] at h
  exact ⟨by simp [hop, h], nofun, by simp [hop, h], by simp [hop, h], by simp [hop, h]⟩

theorem tangible_set {head : Value} {args : List Value} {set : CharSet}
    (hop : operator? (.list (head :: args)) = some .set) (hset : CharSet.ofArguments args = .ok set)
    (hclear : ¬ set.StrayHyphen)
    (hargs : ∀ v ∈ args, ∀ part, argument v = .ok part → ∀ p ∈ part.1, IsCode p.1 ∧ IsCode p.2) :
    Tangible (.list (head :: args)) := by
  refine ⟨by simp [hop], nofun, fun _ set' hset' => ?_, fun _ => hargs, by simp [hop]⟩
  cases hset.symm.trans hset'
  exact hclear

theorem tangible_not {head : Value} {args : List Value}
    (hop : operator? (.list (head :: args)) = some .not)
    (hargs : ∀ v ∈ args, ∀ code, charCode v = .ok code → IsCode code) :
    Tangible (.list (head :: args)) :=
  ⟨by simp [hop], nofun, by simp [hop], by simp [hop], fun _ => hargs⟩

theorem not_everything {form : Value} (hchar : form ≠ .sym "anychar")
    (hthing : form ≠ .sym "anything") (hop : operator? form ≠ some .not) : ¬ Everything form := by
  intro h
  cases h with
  | anychar => exact hchar rfl
  | anything => exact hthing rfl
  | notNothing hnot => exact hop hnot

theorem not_everything_not {head arg : Value} {set : CharSet}
    (hset : CharSet.ofArguments (arguments arg) = .ok set) (hne : set ≠ ⟨[], []⟩) :
    ¬ Everything (.list [head, arg]) := by
  intro h
  cases h with
  | notNothing _ harg _ hnone =>
    cases harg
    cases hset.symm.trans hnone
    exact hne rfl

/-! ### The regexp of forms -/

/-- All that the linter may report about the regexp of forms that stand for characters is the
reversed range of a form for all characters. -/
theorem generated_clean (h : ∀ form ∈ forms, Throughout Tangible form)
    (hw : ofForms forms = .ok r) :
    ∃ issues, lint r.toList = .ok issues ∧ (∀ i ∈ issues, i.2 = allReversed) ∧
      ((∀ form ∈ forms, Throughout (fun form => ¬ Everything form) form) → issues = []) := by
  have hseq : Throughout Tangible (.list (.sym "seq" :: forms)) :=
    ⟨tangible_list rfl (by decide), h⟩
  have hfit : Throughout (Fit (· = allReversed) False) (.list (.sym "seq" :: forms)) :=
    hseq.imp fun form hform hargs => hform.fit hargs fun _ => rfl
  obtain ⟨issues, hlint, hall⟩ := ofForms_lint hfit hw
  refine ⟨issues, hlint, hall, fun hnone => ?_⟩
  have hother : Throughout (fun form => ¬ Everything form) (.list (.sym "seq" :: forms)) :=
    ⟨not_everything nofun nofun nofun, hnone⟩
  have hfit : Throughout (Fit (fun _ => False) False) (.list (.sym "seq" :: forms)) :=
    (hseq.and hother).imp fun form ⟨hform, hother⟩ hargs =>
      hform.fit (fun a ha => (hargs a ha).1) fun heverything => hother heverything
  obtain ⟨issues', hlint', hall'⟩ := ofForms_lint hfit hw
  cases hlint.symm.trans hlint'
  exact List.eq_nil_iff_forall_not_mem.mpr hall'

/-- `(= 2 (not (any "^-")))`: a complement that is repeated, of a set that opens with a caret. -/
theorem repeatedComplement_clean :
    ofForms [.list [.sym "=", .int 2, .list [.sym "not", .list [.sym "any", .str "^-"]]]]
      = .ok "[^^-]\\\x7b2\\\x7d" ∧ lint "[^^-]\\\x7b2\\\x7d".toList = .ok [] := by
  have hcaret : CharSet.ofArguments [.str "^-"] = .ok ⟨[(45, 45), (94, 94)], []⟩ := by
    rw [ofArguments_insertion]
    exact ok_of_toOption (by decide +kernel)
  have hwritten : write true (.list [.sym "not", .list [.sym "any", .str "^-"]])
      = .ok ⟨"[^^-]".toList, .atom⟩ := by
    change (CharSet.ofArguments [.str "^-"] >>= fun set => set.render true) = _
    rw [hcaret]
    exact ok_of_toOption (by decide +kernel)
  have hrepeated :
      write true (.list [.sym "=", .int 2, .list [.sym "not", .list [.sym "any", .str "^-"]]])
        = do
          let items ← writeAll true [.list [.sym "not", .list [.sym "any", .str "^-"]]]
          return repeated (sequence items) (← boundMark 2 (some 2)) := rfl
  have hw : ofForms [.list [.sym "=", .int 2, .list [.sym "not", .list [.sym "any", .str "^-"]]]]
      = .ok "[^^-]\\\x7b2\\\x7d" := by
    rw [ofForms, writeAll, writeAll, hrepeated, writeAll, writeAll, hwritten]
    exact ok_of_toOption (by decide +kernel)
  have hset : Tangible (.list [.sym "any", .str "^-"]) := by
    refine tangible_set rfl hcaret (by decide) ?_
    simp only [List.forall_mem_cons]
    exact ⟨fun part => argument_str_codes, List.forall_mem_nil _⟩
  have hnot : Tangible (.list [.sym "not", .list [.sym "any", .str "^-"]]) := by
    refine tangible_not rfl (List.forall_mem_singleton.mpr fun code hcode => ?_)
    cases hcode
  obtain ⟨issues, hlint, -, hclean⟩ := generated_clean (by
    simp only [List.forall_mem_cons, List.not_mem_nil, false_implies, implies_true, and_true,
      throughout_list, throughout_str, throughout_int]
    exact ⟨tangible_list rfl (by decide), tangible_int, hnot, hset, tangible_str⟩) hw
  refine ⟨hw, hlint.trans (congrArg _ (hclean ?_))⟩
  have hlist {forms : List Value} (hop : operator? (.list forms) ≠ some .not) :
      ¬ Everything (.list forms) := not_everything (by simp) (by simp) hop
  have hleft : ¬ Everything (.list [.sym "not", .list [.sym "any", .str "^-"]]) :=
    not_everything_not hcaret (by decide)
  have hstr : ¬ Everything (.str "^-") := not_everything (by simp) (by simp) (by decide)
  have hint : ¬ Everything (.int 2) := not_everything (by simp) (by simp) (by decide)
  simp only [List.forall_mem_cons, List.not_mem_nil, false_implies, implies_true, and_true,
    throughout_list, throughout_str, throughout_int]
  exact ⟨hlist (by decide), hint, hleft, hlist (by decide), hstr⟩

/-- The regexp of all characters is reported itself. -/
theorem anychar_reported : ofForms [.sym "anychar"] = .ok "[^z-a]" ∧
    lint "[^z-a]".toList = .ok [(2, allReversed)] :=
  ⟨ok_of_toOption (by decide +kernel), ok_of_toOption (by decide +kernel)⟩

end PatternLint.Rx
