import PatternLint.Proofs.WrittenPhrases

/-! The precedence of a written regexp is truthful. Its tokens are complete and its groups balanced;
only an alternation shows an operator of alternation outside of groups, and an atom is a single
token or a single group, to which an operator behind it applies as a whole. -/

namespace PatternLint.Rx

open Pattern.Regexp

/-- No issue counts. -/
theorem lenient_all : Lenient fun _ => True :=
  ⟨fun _ _ => trivial, trivial, fun _ => trivial⟩

theorem joinable_all (anchored : Prop) (items : List Item) :
    Joinable (fun _ => True) anchored items :=
  ⟨fun _ _ _ => trivial, fun _ _ _ => trivial⟩

/-- A form that does not give a regexp as text, and no set with both a comma and a hyphen. -/
structure Ordinary (form : Value) : Prop where
  given : operator? form ≠ some .regexp
  set : operator? form = some .set → ∀ set, CharSet.ofArguments (arguments form) = .ok set →
    ¬ (Covers set.intervals 44 ∧ Covers set.intervals 45)

theorem ordinary_of_operator {form : Value} (hgiven : operator? form ≠ some .regexp)
    (hset : operator? form ≠ some .set) : Ordinary form :=
  ⟨hgiven, fun h => absurd h hset⟩

theorem Ordinary.clear {form : Value} (h : Ordinary form) (hop : operator? form = some .set)
    {set : CharSet} (hset : CharSet.ofArguments (arguments form) = .ok set) :
    ¬ set.StrayHyphen := by
  rintro ⟨hmem, -⟩
  exact h.set hop set hset ⟨⟨_, hmem, by decide⟩, ⟨_, hmem, by decide⟩⟩

theorem Ordinary.fit {form : Value} (h : Ordinary form) (hargs : ∀ a ∈ arguments form, Ordinary a) :
    Fit (fun _ => True) True form where
  symbol name item _ hitem := held_symbol lenient_all trivial hitem
  operator operator hop := by
    refine lenient_all.suits ?_ (fun hset set => h.clear (hset ▸ hop))
      (fun arg harg hset set => (hargs arg harg).clear hset) fun _ items _ => joinable_all _ items
    rintro rfl
    exact h.given hop

/-- An operator at the end of a regexp is a token of its own. -/
theorem runs_operator {op : Char} (hop : op ∈ ['*', '+', '?']) (s : Spot) :
    ∃ t, Runs s [op] [] [⟨[op], s.state.groups.length⟩] t ∧ t.state.groups = s.state.groups := by
  have hstep : step s.state s.before s.pos op ([] ++ [])
      = .ok ((postfixStep s.state s.pos op []).1, ([] : List Char).length) := by
    rw [step_many hop]
    unfold postfixStep
    split <;> rfl
  refine ⟨_, .token hstep, ?_⟩
  unfold Spot.past postfixStep
  split
  · rfl
  · dsimp only
    split <;> rfl

theorem atom_repeated {text : List Char} {opens closes : Bool} {op : Char}
    (h : Phrase (fun _ => True) True .atom opens closes text) (hop : op ∈ ['*', '+', '?']) :
    ∃ operand, Whole 0 operand ∧ operand.flatMap Token.text = text ∧
      tokens (text ++ [op]) = .ok (operand ++ [⟨[op], 0⟩]) := by
  obtain ⟨operand, t, hfound⟩ :=
    h.found .initial [op] ⟨nofun, fun _ => .inl rfl, fun _ => .inr trivial⟩
  obtain ⟨u, hrun, hgroups⟩ := runs_operator hop t
  rw [hfound.groups] at hrun hgroups
  exact ⟨operand, hfound.whole rfl, hfound.runs.text_eq,
    (hfound.runs.append hrun).tokens_eq hgroups⟩

/-- The tokens of a written regexp are complete, its groups are balanced, and it holds together
as its precedence tells. -/
theorem write_truthful (greedy : Bool) (form : Value) (h : Throughout Ordinary form) {item : Item}
    (hw : write greedy form = .ok item) :
    ∃ ts, tokens item.text = .ok ts ∧ ts.flatMap Token.text = item.text ∧
      (item.precedence ≠ .alt → ∀ k ∈ ts, k.depth = 0 → k.text ≠ ['\\', '|']) ∧
      (item.precedence = .atom → Whole 0 ts ∧ ∀ op ∈ ['*', '+', '?'],
        ∃ operand, Whole 0 operand ∧ operand.flatMap Token.text = item.text ∧
          tokens (item.text ++ [op]) = .ok (operand ++ [⟨[op], 0⟩])) := by
  obtain ⟨opens, closes, hphrase⟩ := write_held greedy form (h.imp fun _ => Ordinary.fit) hw
  obtain ⟨ts, t, hfound⟩ := hphrase.found_alone
  refine ⟨ts, hfound.tokens_eq, hfound.runs.text_eq, hfound.bars, fun hatom =>
    ⟨hfound.whole hatom, ?_⟩⟩
  rw [hatom] at hphrase
  exact fun op hop => atom_repeated hphrase hop

/-- `(group (or bol (any "a-c]")))`: an alternation in a group, of a line start and a set that opens
with a bracket. -/
theorem groupedChoice_truthful : ∃ ts,
    write true
      (.list [.sym "group", .list [.sym "or", .sym "bol", .list [.sym "any", .str "a-c]"]]])
      = .ok ⟨"\\(^\\|[]a-c]\\)".toList, .atom⟩ ∧
    tokens "\\(^\\|[]a-c]\\)".toList = .ok ts ∧ Whole 0 ts := by
  have hset : CharSet.ofArguments [.str "a-c]"] = .ok ⟨[(93, 93), (97, 99)], []⟩ := by
    rw [ofArguments_insertion]
    exact ok_of_toOption (by decide +kernel)
  have hform : Throughout Ordinary (.list [.sym "group",
      .list [.sym "or", .sym "bol", .list [.sym "any", .str "a-c]"]]]) := by
    have hany : Ordinary (.list [.sym "any", .str "a-c]"]) :=
      ⟨by decide, fun _ set h => by cases hset.symm.trans h; simp [Covers]⟩
    have hother {form : Value} (h : operator? form ∈ [none, some .or, some .group]) :
        Ordinary form :=
      ordinary_of_operator (fun hop => by simp [hop] at h) (fun hop => by simp [hop] at h)
    simp only [throughout_list, throughout_str, throughout_sym, List.forall_mem_cons,
      List.not_mem_nil, false_implies, implies_true, and_true]
    exact ⟨hother (by decide), hother (by decide), hother (by decide), hany, hother (by decide)⟩
  have hany : write true (.list [.sym "any", .str "a-c]"]) = .ok ⟨"[]a-c]".toList, .atom⟩ := by
    change (CharSet.ofArguments [.str "a-c]"] >>= fun set => set.render false) = _
    rw [hset]
    exact ok_of_toOption (by decide +kernel)
  have hor : write true (.list [.sym "or", .sym "bol", .list [.sym "any", .str "a-c]"]])
      = do return choice (← writeAll true [.sym "bol", .list [.sym "any", .str "a-c]"]]) := rfl
  have hgroup : write true (.list [.sym "group",
      .list [.sym "or", .sym "bol", .list [.sym "any", .str "a-c]"]]])
        = do
          let items ← writeAll true [.list [.sym "or", .sym "bol", .list [.sym "any", .str "a-c]"]]]
          return grouped none (sequence items) := rfl
  have hw : write true (.list [.sym "group",
      .list [.sym "or", .sym "bol", .list [.sym "any", .str "a-c]"]]])
        = .ok ⟨"\\(^\\|[]a-c]\\)".toList, .atom⟩ := by
    rw [hgroup, writeAll, writeAll, hor, writeAll, writeAll, writeAll, hany]
    exact ok_of_toOption (by decide +kernel)
  obtain ⟨ts, htokens, -, -, hatom⟩ := write_truthful true _ hform hw
  exact ⟨ts, hw, htokens, (hatom rfl).1⟩

end PatternLint.Rx
