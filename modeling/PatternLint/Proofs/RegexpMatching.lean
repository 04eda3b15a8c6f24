import PatternLint.Proofs.RegexpPhrases
import PatternLint.Proofs.BracketReading

/-! What a regexp of characters, sets, groups and alternatives matches. Its tokens are
read into a tree, and the places where a match of the tree may stop come in the order in
which a matcher tries them. -/

namespace PatternLint.Pattern.Regexp

/-! ### Trees -/

/-- A regexp whose groups only hold together what is inside them. -/
inductive Tree where
  | empty
  | item (r : Reading)
  | textStart
  | append (a b : Tree)
  | choice (a b : Tree)
  deriving Repr, DecidableEq

/-- A place in a text: what stands before it, in reverse, and what follows. -/
structure Place where
  before : List Char
  rest : List Char
  deriving Repr, DecidableEq

/-- Behind a text that starts at the place. -/
def Place.past (p : Place) (text : List Char) : Place :=
  ⟨text.reverse ++ p.before, p.rest.drop text.length⟩

section
variable (member : String → Char → Prop) [∀ name c, Decidable (member name c)]

instance (e : Element) (c : Char) : Decidable (e.Matches member c) :=
  match e with
  | .span s => inferInstanceAs (Decidable (s.lo ≤ c ∧ c ≤ s.hi))
  | .named name => inferInstanceAs (Decidable (member name c))

instance (r : Reading) (c : Char) : Decidable (r.Matches member c) :=
  match r with
  | .char a => inferInstanceAs (Decidable (c = a))
  | .set negated es =>
    inferInstanceAs (Decidable ((∃ e ∈ es, e.Matches member c) ↔ negated = false))

/-- The places where a match from a place on may stop, in the order in which they are tried. -/
def Tree.stops (p : Place) : Tree → List Place
  | .empty => [p]
  | .item r =>
    match p.rest with
    | [] => []
    | c :: _ => if r.Matches member c then [p.past [c]] else []
  | .textStart => if p.before = [] then [p] else []
  | .append a b => (a.stops p).flatMap fun q => b.stops q
  | .choice a b => a.stops p ++ b.stops p

/-- Matches the whole text. -/
def Tree.Matches (tree : Tree) (text : List Char) : Prop :=
  ∃ q ∈ tree.stops member ⟨[], text⟩, q.rest = []

end

/-! ### Reading -/

/-- What a token stands for. -/
inductive Mark where
  | item (r : Reading)
  | textStart
  | opens
  | closes
  | bar
  deriving Repr, DecidableEq

def mark? (token : List Char) : Option Mark :=
  if token = "\\(".toList ∨ token = "\\(?:".toList then some .opens
  else if token = "\\)".toList then some .closes
  else if token = "\\|".toList then some .bar
  else if token = "\\`".toList then some .textStart
  else (reading? token).map .item

/-- A group so far, or the whole regexp: the alternatives that are complete, and the last one. -/
structure Level where
  complete : Option Tree
  last : Tree
  deriving Repr, DecidableEq

namespace Level

def start : Level :=
  ⟨none, .empty⟩

def add (l : Level) (tree : Tree) : Level :=
  { l with last := .append l.last tree }

def tree (l : Level) : Tree :=
  match l.complete with
  | none => l.last
  | some tree => .choice tree l.last

def bar (l : Level) : Level :=
  ⟨some l.tree, .empty⟩

end Level

/-- The tree of a regexp from a mark on, with the levels around the one that is open. -/
def treeFrom (outer : List Level) (level : Level) (marks : List Mark) : Option Tree :=
  match marks with
  | [] => if outer.isEmpty then some level.tree else none
  | .item r :: more => treeFrom outer (level.add (.item r)) more
  | .textStart :: more => treeFrom outer (level.add .textStart) more
  | .opens :: more => treeFrom (level :: outer) .start more
  | .closes :: more =>
    match outer with
    | [] => none
    | around :: outer => treeFrom outer (around.add level.tree) more
  | .bar :: more => treeFrom outer level.bar more

/-- The tree of a regexp whose tokens are characters, sets, brackets, bars
and starts of the text. -/
def tree? (regexp : List Char) : Option Tree := do
  let ts ← (tokens regexp).toOption
  treeFrom [] .start (← ts.mapM fun k => mark? k.text)

/-! ### Trees that match a list of texts -/

variable {member : String → Char → Prop} [∀ name c, Decidable (member name c)]
  {texts others : List (List Char)} {a b tree : Tree} {text : List Char} {c : Char} {p q : Place}

/-- Wherever the tree is tried, it matches those of the texts that stand there, in their order. -/
def Tree.Tries (member : String → Char → Prop) [∀ name c, Decidable (member name c)] (tree : Tree)
    (texts : List (List Char)) : Prop :=
  ∀ p : Place, tree.stops member p = (texts.filter fun t => t.isPrefixOf p.rest).map p.past

namespace Tree.Tries

theorem empty : Tries member .empty [[]] := fun p => by
  simp [stops, Place.past]

theorem isPrefixOf_append (a b rest : List Char) :
    (a ++ b).isPrefixOf rest = (a.isPrefixOf rest && b.isPrefixOf (rest.drop a.length)) := by
  induction a generalizing rest with
  | nil => simp
  | cons c a ih => cases rest with
    | nil => simp
    | cons d rest => simp [List.isPrefixOf, ih, Bool.and_assoc]

theorem append (ha : Tries member a texts) (hb : Tries member b others) :
    Tries member (.append a b) (texts.flatMap fun t => others.map (t ++ ·)) := by
  intro p
  have hbehind (t : List Char) :
      ((others.map (t ++ ·)).filter fun t => t.isPrefixOf p.rest).map p.past
        = if t.isPrefixOf p.rest then b.stops member (p.past t) else [] := by
    rw [hb (p.past t), List.filter_map, List.map_map]
    split
    · simp [Function.comp_def, isPrefixOf_append, Place.past, *]
    · simp [Function.comp_def, isPrefixOf_append, *]
  rw [stops, ha p, List.filter_flatMap, List.map_flatMap]
  simp only [hbehind]
  clear ha hbehind
  induction texts with
  | nil => rfl
  | cons t texts ih =>
    rw [List.filter_cons, List.flatMap_cons, ← ih]
    split <;> simp

theorem choice (ha : Tries member a texts) (hb : Tries member b others) :
    Tries member (.choice a b) (texts ++ others) := fun p => by
  rw [stops, ha p, hb p, List.filter_append, List.map_append]

/-- A single item for texts of one character each. -/
theorem item {r : Reading} (hnodup : texts.Nodup) (hall : ∀ t ∈ texts, t.length = 1)
    (hr : ∀ c, r.Matches member c ↔ [c] ∈ texts) : Tries member (.item r) texts := by
  rintro ⟨before, rest⟩
  cases rest with
  | nil =>
    have hnone : texts.filter (fun t => t.isPrefixOf []) = [] :=
      List.filter_eq_nil_iff.mpr fun t ht hprefix => by
        have := hall t ht
        simp_all
    rw [hnone]
    rfl
  | cons c rest =>
    have hhere : ∀ t ∈ texts, t.isPrefixOf (c :: rest) = (t == [c]) := fun t ht => by
      obtain ⟨d, rfl⟩ := List.length_eq_one_iff.mp (hall t ht)
      simp [List.isPrefixOf]
    rw [List.filter_congr hhere, List.filter_beq, hnodup.count]
    simp only [stops, hr]
    split <;> rfl

theorem mem_stops (h : Tries member tree texts) :
    q ∈ tree.stops member p ↔ ∃ t ∈ texts, t <+: p.rest ∧ q = p.past t := by
  simp only [h p, List.mem_map, List.mem_filter, List.isPrefixOf_iff_prefix,
    and_assoc, @eq_comm _ q]

theorem matches_iff (h : Tries member tree texts) : tree.Matches member text ↔ text ∈ texts := by
  unfold Matches
  constructor
  · rintro ⟨q, hq, hrest⟩
    obtain ⟨t, ht, hprefix, rfl⟩ := h.mem_stops.mp hq
    have heq : t = text := hprefix.eq_of_length_le (List.drop_eq_nil_iff.mp hrest)
    exact heq ▸ ht
  · intro htext
    exact ⟨_, h.mem_stops.mpr ⟨text, htext, List.prefix_rfl, rfl⟩, List.drop_length⟩

/-- Of texts that stand at one place, the first is the longest if no longer one follows another. -/
theorem head?_longest {here : List (List Char)} {rest : List Char} (hstand : ∀ t ∈ here, t <+: rest)
    (hlongest : here.Pairwise fun a b => b.length ≤ a.length) :
    here.head? = some text ↔ text ∈ here ∧ ∀ other ∈ here, other.length ≤ text.length := by
  cases here with
  | nil => simp
  | cons first more =>
    have hmax : ∀ other ∈ first :: more, other.length ≤ first.length :=
      List.forall_mem_cons.mpr ⟨Nat.le_refl _, (List.pairwise_cons.mp hlongest).1⟩
    rw [List.head?_cons, Option.some_inj]
    constructor
    · rintro rfl
      exact ⟨List.mem_cons_self, hmax⟩
    · rintro ⟨htext, hlong⟩
      -- Texts of one length that stand at one place are the same.
      have hle := hlong first List.mem_cons_self
      have hprefix := List.prefix_of_prefix_length_le (hstand _ List.mem_cons_self)
        (hstand _ htext) hle
      exact hprefix.eq_of_length_le (hmax _ htext)

/-- The first match takes the longest of the texts that stand there, if
longer ones are tried first. -/
theorem head?_iff (h : Tries member tree texts)
    (hlongest : texts.Pairwise fun a b => b.length ≤ a.length) :
    (tree.stops member p).head? = some q ↔ ∃ t ∈ texts, t <+: p.rest ∧ q = p.past t ∧
      ∀ other ∈ texts, other <+: p.rest → other.length ≤ t.length := by
  have hmem (t : List Char) :
      t ∈ texts.filter (fun t => t.isPrefixOf p.rest) ↔ t ∈ texts ∧ t <+: p.rest := by
    simp
  have hfirst (t : List Char) := @head?_longest t _ _ (fun t ht => ((hmem t).mp ht).2)
    (hlongest.filter fun t => t.isPrefixOf p.rest)
  simp only [h p, List.head?_map, Option.map_eq_some_iff, hfirst, hmem, and_imp]
  constructor
  · rintro ⟨t, ⟨⟨ht, hstands⟩, hlong⟩, rfl⟩
    exact ⟨t, ht, hstands, rfl, hlong⟩
  · rintro ⟨t, ht, hstands, rfl, hlong⟩
    exact ⟨t, ⟨⟨ht, hstands⟩, hlong⟩, rfl⟩

end Tree.Tries

/-- The trees of a level match these texts, of which the last alternative matches the others. -/
structure Level.Tries (member : String → Char → Prop) [∀ name c, Decidable (member name c)]
    (l : Level) (texts others : List (List Char)) : Prop where
  complete : match l.complete with
    | none => texts = []
    | some tree => tree.Tries member texts
  last : l.last.Tries member others

namespace Level.Tries

variable {l : Level} {new : List (List Char)}

theorem start : Level.start.Tries member [] [[]] :=
  ⟨rfl, .empty⟩

theorem add (h : l.Tries member texts others) (htree : tree.Tries member new) :
    (l.add tree).Tries member texts (others.flatMap fun t => new.map (t ++ ·)) :=
  ⟨h.complete, h.last.append htree⟩

theorem whole (h : l.Tries member texts others) : l.tree.Tries member (texts ++ others) := by
  obtain ⟨complete, last⟩ := l
  obtain ⟨hcomplete, hlast⟩ := h
  cases complete with
  | none =>
    obtain rfl : texts = [] := hcomplete
    exact hlast
  | some tree => exact .choice hcomplete hlast

theorem bar (h : l.Tries member texts others) : l.bar.Tries member (texts ++ others) [[]] :=
  ⟨h.whole, .empty⟩

end Level.Tries

/-! ### Texts of a tree -/

/-- Wherever the text stands, it leaves no group open, and its marks turn one level into another. -/
def Turns (l : Level) (text : List Char) (l' : Level) : Prop :=
  ∃ marks, (∀ s after, ∃ ts t, Runs s text after ts t ∧ t.state.groups = s.state.groups ∧
      ts.mapM (fun k => mark? k.text) = some marks) ∧
    ∀ outer more, treeFrom outer l (marks ++ more) = treeFrom outer l' more

namespace Turns

variable {l l' l'' : Level} {text text' opening : List Char}

theorem nil : Turns l [] l :=
  ⟨[], fun s _ => ⟨[], s, .nil, rfl, rfl⟩, fun _ _ => rfl⟩

theorem append (h : Turns l text l') (h' : Turns l' text' l'') : Turns l (text ++ text') l'' := by
  obtain ⟨marks, hruns, htree⟩ := h
  obtain ⟨marks', hruns', htree'⟩ := h'
  refine ⟨marks ++ marks', fun s after => ?_, fun outer more => ?_⟩
  · obtain ⟨ts, t, hrun, hgroups, hmarks⟩ := hruns s (text' ++ after)
    obtain ⟨us, u, hrun', hgroups', hmarks'⟩ := hruns' t after
    refine ⟨ts ++ us, u, hrun.append hrun', hgroups'.trans hgroups, ?_⟩
    simp [List.mapM_append, hmarks, hmarks']
  · rw [List.append_assoc, htree, htree']

theorem token {operand : Operand} {m : Mark} (h : Rx.OneToken (fun _ => True) operand text)
    (hmark : mark? text = some m)
    (htree : ∀ outer more, treeFrom outer l (m :: more) = treeFrom outer l' more) :
    Turns l text l' := by
  refine ⟨[m], fun s after => ?_, htree⟩
  obtain ⟨t, hgoes, -⟩ := h.goes s after
  exact ⟨_, t, hgoes.runs, hgoes.groups, by simp [hmark]⟩

theorem item {operand : Operand} {r : Reading} (h : Rx.OneToken (fun _ => True) operand text)
    (hmark : mark? text = some (.item r)) : Turns l text (l.add (.item r)) :=
  token h hmark fun _ _ => rfl

theorem bar : Turns l "\\|".toList l.bar :=
  ⟨[.bar], fun s after => ⟨_, _, (Rx.goes_bar (fun _ => True) s after).runs, rfl, rfl⟩,
    fun _ _ => rfl⟩

/-- A group around a text is added to the level around it. -/
theorem group (hopening : Rx.Opening opening) (hmark : mark? opening = some .opens)
    (hhead : text.head? ≠ some '?') (h : Turns .start text l') :
    Turns l (opening ++ (text ++ "\\)".toList)) (l.add l'.tree) := by
  obtain ⟨marks, hruns, htree⟩ := h
  refine ⟨.opens :: (marks ++ [.closes]), fun s after => ?_, fun outer more => ?_⟩
  · have hrest : (text ++ "\\)".toList ++ after).head? ≠ some '?' := by
      cases text with
      | nil => simp
      | cons => simpa using hhead
    obtain ⟨more, rfl, hstep⟩ := hopening.step_eq hrest s.state s.before s.pos
    have hopen := Runs.token hstep
    obtain ⟨ts, t, hrun, hgroups, hmarks⟩ :=
      hruns (s.past ('\\' :: more) (Rx.State.opened s.state s.pos)) ("\\)".toList ++ after)
    obtain ⟨u, hclose, hu⟩ := Rx.found_close hgroups after
    refine ⟨_, u, hopen.append (by simpa using hrun.append hclose), by rw [hu], ?_⟩
    have hlast : mark? ['\\', ')'] = some .closes := rfl
    simp [List.mapM_append, hmark, hmarks, hlast]
  · rw [List.cons_append, List.append_assoc, treeFrom, htree]
    rfl

theorem tree?_eq (h : Turns .start text l) : tree? text = some l.tree := by
  obtain ⟨marks, hruns, htree⟩ := h
  obtain ⟨ts, t, hrun, hgroups, hmarks⟩ := hruns .initial []
  have htree := htree [] []
  rw [List.append_nil] at htree
  simp [tree?, hrun.tokens_eq hgroups, hmarks, Except.toOption, htree, treeFrom]

end Turns

end PatternLint.Pattern.Regexp
