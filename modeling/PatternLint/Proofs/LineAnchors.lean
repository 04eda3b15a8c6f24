import PatternLint.Proofs.WrittenPhrases

/-! Line starts and line ends of a written regexp. Brackets hide those of an operand, but a sequence
joins its items as they are: there, a line start has to stand first and a line end last to be an
anchor where the regexp is read. -/

namespace PatternLint.Rx

open Pattern.Regexp

variable {may : Issue → Prop} {anchored : Prop} {item : Item} {items : List Item} {form : Value}
  {forms : List Value} {r : String}

/-- In a sequence, the item opens with a line start that no brackets hide. -/
def Item.startsLine (item : Item) : Bool :=
  item.precedence != .alt &&
    (tokens item.text).toOption.any fun ts => ts.head? == some ⟨['^'], 0⟩

/-- In a sequence, the item closes with a line end that no brackets hide. -/
def Item.endsLine (item : Item) : Bool :=
  item.precedence != .alt &&
    (tokens item.text).toOption.any fun ts => ts.getLast? == some ⟨['$'], 0⟩

/-- Of the items of a sequence, only the first starts a line and only the last ends one. -/
structure Aligned (items : List Item) : Prop where
  starts : ∀ i ∈ (present items).tail, i.startsLine = false
  ends : ∀ i ∈ (present items).dropLast, i.endsLine = false

instance (items : List Item) : Decidable (Aligned items) :=
  decidable_of_iff ((∀ i ∈ (present items).tail, i.startsLine = false) ∧
    ∀ i ∈ (present items).dropLast, i.endsLine = false)
    ⟨fun ⟨hstarts, hends⟩ => ⟨hstarts, hends⟩, fun ⟨hstarts, hends⟩ => ⟨hstarts, hends⟩⟩

/-- A form that does not give a regexp as text and whose set is written as it is meant, with the
anchors among its arguments at the ends of their sequence. -/
structure Anchored (form : Value) : Prop where
  given : operator? form ≠ some .regexp
  set : operator? form = some .set → ∀ set, CharSet.ofArguments (arguments form) = .ok set →
    ¬ set.StrayHyphen
  aligned : ∀ operator, operator? form = some operator → ∀ greedy items,
    writeAll greedy (sequenced operator (arguments form)) = .ok items → Aligned items

/-- The issue is not about an anchor that has become a character. -/
def KeepsAnchors (issue : Issue) : Prop :=
  issue ≠ .unescaped '^' ∧ issue ≠ .unescaped '$'

theorem lenient_keepsAnchors : Lenient KeepsAnchors where
  operator c hc := by
    have hne : c ≠ '^' ∧ c ≠ '$' := by
      constructor <;> rintro rfl <;> exact absurd hc (by decide)
    simpa [KeepsAnchors] using hne
  interval := ⟨nofun, nofun⟩
  set _ := ⟨nofun, nofun⟩

theorem ShowsStart.startsLine (h : ShowsStart may anchored item) : item.startsLine = true := by
  obtain ⟨hne, closes, hphrase⟩ := h
  obtain ⟨ts, t, hfound⟩ := hphrase.found_alone
  have hfirst : ts.head? = some ⟨['^'], 0⟩ := hfound.first rfl
  simp [Item.startsLine, hne, hfound.tokens_eq, Except.toOption, hfirst]

theorem ShowsEnd.endsLine (h : ShowsEnd may anchored item) : item.endsLine = true := by
  obtain ⟨hne, opens, hphrase⟩ := h
  obtain ⟨ts, t, hfound⟩ := hphrase.found_alone
  have hlast : ts.getLast? = some ⟨['$'], 0⟩ := hfound.last rfl
  simp [Item.endsLine, hne, hfound.tokens_eq, Except.toOption, hlast]

theorem Aligned.joinable (h : Aligned items) : Joinable may anchored items where
  opens i hi hshows := absurd hshows.startsLine (by simp [h.starts i hi])
  closes i hi hshows := absurd hshows.endsLine (by simp [h.ends i hi])

theorem Anchored.fit (h : Anchored form) (hargs : ∀ a ∈ arguments form, Anchored a) :
    Fit KeepsAnchors True form where
  symbol name item _ hitem := held_symbol lenient_keepsAnchors trivial hitem
  operator operator hop := by
    refine lenient_keepsAnchors.suits ?_ (fun hset => h.set (hset ▸ hop))
      (fun arg harg => (hargs arg harg).set)
      fun greedy items hitems => (h.aligned operator hop greedy items hitems).joinable
    rintro rfl
    exact h.given hop

/-- Where the anchors of all forms stand at the ends of their sequences, none of them is
written as a character. -/
theorem anchors_kept (h : Throughout Anchored (.list (.sym "seq" :: forms)))
    (hw : ofForms forms = .ok r) :
    ∃ issues, lint r.toList = .ok issues ∧
      ∀ i ∈ issues, i.2 ≠ .unescaped '^' ∧ i.2 ≠ .unescaped '$' :=
  ofForms_lint (h.imp fun _ => Anchored.fit) hw

theorem aligned_of_all {body : List Value}
    (h : ∀ greedy, (writeAll greedy body).toOption.all (decide <| Aligned ·) = true) (greedy : Bool)
    (items : List Item) (hw : writeAll greedy body = .ok items) : Aligned items := by
  have hall := h greedy
  rw [hw] at hall
  exact of_decide_eq_true hall

/-- `bol (* (or eol "a")) line-end`: the line end of the alternative is inside brackets. -/
theorem repeatedChoice_anchored : ∃ issues,
    ofForms [.sym "bol", .list [.sym "*", .list [.sym "or", .sym "eol", .str "a"]], .sym "line-end"]
      = .ok "^\\(?:$\\|a\\)*$" ∧
    lint "^\\(?:$\\|a\\)*$".toList = .ok issues ∧
      ∀ i ∈ issues, i.2 ≠ .unescaped '^' ∧ i.2 ≠ .unescaped '$' := by
  have hleaf {form : Value} (h : operator? form = none) : Anchored form :=
    ⟨by simp [h], by simp [h], by simp [h]⟩
  have hnode {form : Value} {operator : Operator} (hop : operator? form = some operator)
      (hgiven : operator ≠ .regexp) (hset : operator ≠ .set)
      (h : ∀ greedy, (writeAll greedy (sequenced operator (arguments form))).toOption.all
        (decide <| Aligned ·) = true) : Anchored form := by
    refine ⟨by simpa [hop] using hgiven, by simp [hop, hset], fun operator' hop' => ?_⟩
    cases hop.symm.trans hop'
    exact aligned_of_all h
  have hforms : Throughout Anchored (.list [.sym "seq", .sym "bol",
      .list [.sym "*", .list [.sym "or", .sym "eol", .str "a"]], .sym "line-end"]) := by
    simp only [throughout_list, throughout_sym, throughout_str, List.forall_mem_cons,
      List.not_mem_nil, false_implies, implies_true, and_true]
    refine ⟨hnode rfl (by decide) (by decide) (by decide +kernel), hleaf rfl, ⟨?_, ?_⟩, hleaf rfl⟩
    · exact hnode rfl (by decide) (by decide) (by decide +kernel)
    · exact ⟨hnode rfl (by decide) (by decide) (by decide +kernel), hleaf rfl, hleaf rfl⟩
  have hw : ofForms [.sym "bol", .list [.sym "*", .list [.sym "or", .sym "eol", .str "a"]],
      .sym "line-end"] = .ok "^\\(?:$\\|a\\)*$" := ok_of_toOption (by decide +kernel)
  obtain ⟨issues, hlint, hkept⟩ := anchors_kept hforms hw
  exact ⟨issues, hw, hlint, hkept⟩

/-- A line start behind another item is written as a character. -/
theorem trailingStart_literal : ofForms [.str "a", .sym "bol"] = .ok "a^" ∧
    lint "a^".toList = .ok [(1, .unescaped '^')] :=
  ⟨ok_of_toOption (by decide +kernel), ok_of_toOption (by decide +kernel)⟩

end PatternLint.Rx
