import PatternLint.Pattern.Build
import PatternLint.Pattern.Regexp

/-! What a set between brackets means. The elements of a set are what the linter's reading takes
them for; a regexp of a single item matches a character through them. -/

namespace PatternLint.Text

theorem findFrom_append {name : List Char} (needle cs : List Char) {x : Char} (pos : Nat)
    (hx : x ∉ name) :
    findFrom (x :: needle) pos (name ++ x :: (needle ++ cs)) = some (pos + name.length) := by
  induction name generalizing pos with
  | nil => simp [findFrom]
  | cons c name ih =>
    have hc : x ≠ c := fun h => hx (h ▸ List.mem_cons_self)
    rw [List.cons_append, findFrom, if_neg (by simp [hc]), ih _ (List.not_mem_of_not_mem_cons hx)]
    simp [Nat.add_assoc, Nat.add_comm 1]

end PatternLint.Text

namespace PatternLint.Pattern.Regexp

/-- An element of a set. -/
inductive Element where
  | span (s : Span)
  | named (name : String)
  deriving Repr, DecidableEq

/-- The characters of an element, given those of the classes. -/
def Element.Matches (member : String → Char → Prop) (c : Char) : Element → Prop
  | .span s => s.lo ≤ c ∧ c ≤ s.hi
  | .named name => member name c

/-- The element at the start of a text, and how many characters it takes after the first one. -/
def element? (c : Char) (rest : List Char) : Option (Element × Nat) :=
  match className? (c :: rest) with
  | some name =>
    if String.ofList name ∈ charClasses then some (.named (String.ofList name), name.length + 3)
    else none
  | none =>
    match range? (c :: rest) with
    | some range => some (.span range, 2)
    | none => some (.span (.single c), 0)

/-- The elements of a set up to its closing bracket, and what follows it. -/
def elements (first : Bool) (cs : List Char) : Option (List Element × List Char) :=
  match _h : cs with
  | [] => none
  | c :: rest =>
    if c == ']' && !first then some ([], rest)
    else match element? c rest with
      | some (e, n) => (elements false (rest.drop n)).map fun (es, after) => (e :: es, after)
      | none => none
termination_by cs.length
decreasing_by rw [List.length_drop, List.length_cons]; omega

theorem className?_length (h : className? cs = some name) : name.length + 4 ≤ cs.length := by
  unfold className? at h
  split at h
  · obtain ⟨n, hn, rfl⟩ := Option.map_eq_some_iff.mp h
    have hp := (Text.find?_some hn).2
    have := (List.isPrefixOf_iff_prefix.mp hp).length_le
    simp at this ⊢
    omega
  · cases h

theorem range?_length (h : range? cs = some range) : 3 ≤ cs.length := by
  unfold range? at h
  split at h <;> simp_all

theorem element?_length (h : element? c rest = some (e, n)) : n ≤ rest.length := by
  unfold element? at h
  split at h
  · rename_i name hname
    have := className?_length hname
    grind
  · split at h
    · rename_i range hrange
      have := range?_length hrange
      grind
    · grind

theorem elements_length (h : elements first cs = some (es, after)) : after.length < cs.length := by
  fun_induction elements first cs generalizing es after with
  | case1 => cases h
  | case2 => simp_all
  | case3 first c rest hc e n he ih =>
    obtain ⟨r, hr, hafter⟩ := Option.map_eq_some_iff.mp h
    have := ih hr
    have := element?_length he
    simp at *
    grind
  | case4 => cases h

theorem elements_cons (h : element? c rest = some (e, n)) (hc : c ≠ ']' ∨ first = true) :
    elements first (c :: rest)
      = (elements false (rest.drop n)).map fun r => (e :: r.1, r.2) := by
  rw [elements, if_neg (by grind), h]

/-- Where a set stops that goes on behind an element. -/
theorem stop_behind (h : element? c rest = some (e, n)) (hc : ¬ (c == ']' && !first) = true)
    (ih : stop = (elements false (rest.drop n)).map fun r =>
      pos + (n + 1) + ((rest.drop n).length - r.2.length)) :
    stop = (elements first (c :: rest)).map fun r => pos + ((c :: rest).length - r.2.length) := by
  rw [ih, elements_cons h (by grind), Option.map_map]
  refine Option.map_congr fun r hr => ?_
  have := elements_length (hr : _ = some (r.1, r.2))
  have := element?_length h
  simp at *
  omega

/-- The linter accepts a set exactly when its elements can be read, and stops where they end. -/
theorem setFrom_stop (origin pos : Nat) (first : Bool) (seen : Array Span)
    (issues : List (Nat × Issue)) (cs : List Char) :
    (setFrom origin pos first seen issues cs).toOption.map Prod.snd
      = (elements first cs).map fun r => pos + (cs.length - r.2.length) := by
  fun_induction setFrom origin pos first seen issues cs with
  | case1 => simp [elements, fail, Except.toOption]
  | case2 => simp [elements, Except.toOption, *]
  | case3 pos first seen issues c rest hc name hknown hname ih =>
    have he : element? c rest = some (.named (String.ofList name), name.length + 3) := by
      simp [element?, hname, hknown]
    simp only [hname, hknown, if_true]
    exact stop_behind he hc ih
  | case4 pos first seen issues c rest hc name hknown hname =>
    rw [elements, if_neg hc]
    simp [element?, hname, hknown, fail, Except.toOption]
  | case5 pos first seen issues c rest hc range hrev more hname hrange ih =>
    have he : element? c rest = some (.span range, 2) := by simp [element?, hname, hrange]
    simp only [hname, hrange, hrev, if_true]
    exact stop_behind he hc ih
  | case6 pos first seen issues c rest hc range hrev more hname hrange ih =>
    have he : element? c rest = some (.span range, 2) := by simp [element?, hname, hrange]
    simp only [hname, hrange, hrev, if_false]
    exact stop_behind he hc ih
  | case7 pos first seen issues c rest hc more hname hrange ih =>
    have he : element? c rest = some (.span (.single c), 0) := by simp [element?, hname, hrange]
    simp only [hname, hrange]
    exact stop_behind he hc ih

/-- What a regexp of a single item stands for. -/
inductive Reading where
  | char (c : Char)
  | set (negated : Bool) (es : List Element)
  deriving Repr, DecidableEq

def Reading.Matches (member : String → Char → Prop) (c : Char) : Reading → Prop
  | .char a => c = a
  | .set negated es => (∃ e ∈ es, e.Matches member c) ↔ negated = false

/-- The length of the caret that negates a set, if there is one. -/
def caretLength (rest : List Char) : Nat :=
  if rest.head? == some '^' then 1 else 0

/-- Reads a regexp that is a character, a quoted character or a set. -/
def reading? (text : List Char) : Option Reading :=
  match text with
  | [c] => if c ∈ regexpSpecials then none else some (.char c)
  | '[' :: rest =>
    match elements true (rest.drop (caretLength rest)) with
    | some (es, []) => some (.set (rest.head? == some '^') es)
    | _ => none
  | ['\\', c] => if c ∈ regexpSpecials then some (.char c) else none
  | _ => none

/-- Wherever the text stands, the linter takes exactly this text as one item. -/
def SingleItem (text : List Char) : Prop :=
  ∀ st before pos after, ∃ c rest st', text = c :: rest ∧
    step st before pos c (rest ++ after) = .ok (st', rest.length) ∧ st'.operand = .item

/-- The text is a single item that matches exactly the given characters. -/
def Denotes (member : String → Char → Prop) (text : List Char) (S : Char → Prop) : Prop :=
  SingleItem text ∧ ∃ r, reading? text = some r ∧ ∀ c, r.Matches member c ↔ S c

theorem Denotes.congr {member : String → Char → Prop} {S S' : Char → Prop}
    (h : Denotes member text S) (hS : ∀ c, S c ↔ S' c) : Denotes member text S' := by
  obtain ⟨hitem, r, hr, hall⟩ := h
  exact ⟨hitem, r, hr, fun c => (hall c).trans (hS c)⟩

theorem quoteChar_reading (c : Char) : reading? (quoteChar c) = some (.char c) := by
  unfold quoteChar
  split
  · rename_i h
    simp only [regexpSpecials, List.mem_cons, List.not_mem_nil, or_false] at h
    rcases h with rfl | rfl | rfl | rfl | rfl | rfl | rfl | rfl <;> rfl
  · rename_i h
    simp [reading?, h]

theorem quoteChar_singleItem (c : Char) : SingleItem (quoteChar c) := by
  intro st before pos after
  unfold quoteChar
  split
  · rename_i h
    refine ⟨'\\', [c], st.setOperand .item, rfl, ?_, rfl⟩
    simp only [regexpSpecials, List.mem_cons, List.not_mem_nil, or_false] at h
    rcases h with rfl | rfl | rfl | rfl | rfl | rfl | rfl | rfl <;> rfl
  · rename_i h
    refine ⟨c, [], st.setOperand .item, rfl, ?_, rfl⟩
    simp [regexpSpecials] at h
    simp [step, h]

theorem quoteChar_denotes {member : String → Char → Prop} (c : Char) :
    Denotes member (quoteChar c) fun x => x = c :=
  ⟨quoteChar_singleItem c, .char c, quoteChar_reading c, fun _ => Iff.rfl⟩

/-- The text holds these elements of a set and its closing bracket, whatever follows it. -/
def Lists (first : Bool) (cs : List Char) (es : List Element) : Prop :=
  ∀ after, elements first (cs ++ after) = some (es, after)

/-- The text holds the elements of a set and its closing bracket, whatever follows it; these are
the characters that the elements tell. -/
def Tells (member : String → Char → Prop) (first : Bool) (cs : List Char) (S : Char → Prop) :
    Prop :=
  ∃ es, (∀ after, elements first (cs ++ after) = some (es, after)) ∧
    ∀ c, (∃ e ∈ es, e.Matches member c) ↔ S c

/-- A text that does not join a character before it to a range or the name of a class. -/
def Behind (c : Char) (cs : List Char) : Prop :=
  ∃ x rest, cs = x :: rest ∧ (x = '-' → ∃ more, rest = ']' :: more) ∧ (c = '[' → x ≠ ':')

/-! ### The elements of a text -/

section
variable {first : Bool} {c lo hi : Char} {cs : List Char} {es : List Element} {e : Element}

theorem Lists.close : Lists false [']'] [] :=
  fun after => by simp [elements]

theorem Lists.ne_nil (h : Lists first cs es) : cs ≠ [] := by
  rintro rfl
  simpa [elements] using h []

/-- One more element in front. -/
theorem Lists.cons (h : Lists false cs es) (text : List Char) (hc : c ≠ ']' ∨ first = true)
    (he : ∀ after, element? c (text ++ (cs ++ after)) = some (e, text.length)) :
    Lists first (c :: (text ++ cs)) (e :: es) := by
  intro after
  rw [List.cons_append, List.append_assoc, elements_cons (he after) hc]
  simp [h after]

/-- Only a closing bracket has another meaning at the start of a set. -/
theorem Lists.at_start (h : Lists false cs es) (hcs : cs.head? ≠ some ']') : Lists true cs es := by
  intro after
  have hafter := h after
  match cs with
  | [] => exact absurd rfl h.ne_nil
  | x :: rest =>
    have hx : x ≠ ']' := fun h => hcs (h ▸ rfl)
    rw [List.cons_append, elements] at hafter ⊢
    simpa [hx] using hafter

theorem Lists.single (h : Lists false cs es) (hc : c ≠ ']' ∨ first = true) (hb : Behind c cs) :
    Lists first (c :: cs) (.span (.single c) :: es) := by
  obtain ⟨y, rest, rfl, hrange, hname⟩ := hb
  refine h.cons [] hc fun after => ?_
  have h1 : className? (c :: (y :: rest ++ after)) = none := by
    unfold className?
    split <;> grind
  have h2 : range? (c :: (y :: rest ++ after)) = none := by
    unfold range?
    split <;> grind
  simp only [List.nil_append, element?, h1, h2, List.length_nil]

theorem Lists.range (h : Lists false cs es) (hlo : lo ≠ ']' ∨ first = true) (hhi : hi ≠ ']') :
    Lists first (lo :: '-' :: hi :: cs) (.span ⟨lo, hi⟩ :: es) :=
  h.cons ['-', hi] hlo fun after => by simp [element?, className?, range?, hhi]

theorem colon_not_mem_charClasses : ∀ name ∈ charClasses, ':' ∉ name.toList := by
  decide

theorem element?_named (hname : name ∈ charClasses) (cs : List Char) :
    element? '[' (':' :: (name.toList ++ ':' :: ']' :: cs))
      = some (.named name, name.toList.length + 3) := by
  have hfind : Text.find? [':', ']'] (name.toList ++ ':' :: ']' :: cs)
      = some name.toList.length := by
    simpa [Text.find?] using
      Text.findFrom_append [']'] cs 0 (colon_not_mem_charClasses name hname)
  have hclass : className? ('[' :: ':' :: (name.toList ++ ':' :: ']' :: cs))
      = some name.toList := by
    simp [className?, hfind]
  simp only [element?, hclass, String.ofList_toList, if_pos hname]

theorem Lists.named (h : Lists false cs es) (hname : name ∈ charClasses) :
    Lists first ('[' :: (':' :: name.toList ++ [':', ']'] ++ cs)) (.named name :: es) :=
  h.cons (':' :: name.toList ++ [':', ']']) (.inl (by decide)) fun after => by
    simpa using element?_named hname (cs ++ after)

/-- The linter's step over a set takes its elements and the closing bracket. -/
theorem setStep_ok (hes : elements true (rest.drop (caretLength rest)) = some (es, after))
    (st : State) (pos : Nat) :
    ∃ issues stop, setFrom pos (pos + 1 + caretLength rest) true #[] st.issues
        (rest.drop (caretLength rest)) = .ok (issues, stop) ∧
      setStep st pos rest
        = .ok ({ st with issues := issues, operand := .item }, rest.length - after.length) := by
  have hlen := elements_length hes
  have hstop := setFrom_stop pos (pos + 1 + caretLength rest) true #[] st.issues
    (rest.drop (caretLength rest))
  rw [hes] at hstop
  unfold setStep
  change ∃ issues stop, _ ∧ (setFrom pos (pos + 1 + caretLength rest) true #[] st.issues
    (rest.drop (caretLength rest)) >>= _) = _
  generalize setFrom pos _ true #[] st.issues _ = result at hstop ⊢
  match result, hstop with
  | .ok (issues, stop), hstop =>
    refine ⟨issues, stop, rfl, ?_⟩
    simp [Except.toOption] at hstop
    have : stop - pos - 1 = rest.length - after.length := by
      simp only [List.length_drop] at hlen
      omega
    exact congrArg (fun n => Except.ok (_, n)) this

/-- The step over a set whose elements the text lists, behind a caret if it is negated. -/
theorem Lists.step (h : Lists true cs es) (negated : Bool)
    (hneg : negated = false → cs.head? ≠ some '^') (st : State) (before : List Char) (pos : Nat)
    (after : List Char) :
    ∃ issues origin start stop, setFrom origin start true #[] st.issues (cs ++ after)
        = .ok (issues, stop) ∧
      step st before pos '[' ((if negated then ['^'] else []) ++ cs ++ after)
        = .ok ({ st with issues := issues, operand := .item },
          ((if negated then ['^'] else []) ++ cs).length) := by
  obtain ⟨x, cs, rfl⟩ := List.exists_cons_of_ne_nil h.ne_nil
  generalize hrest : (if negated then ['^'] else []) ++ x :: cs = rest
  have hdrop : (rest ++ after).drop (caretLength (rest ++ after)) = x :: cs ++ after := by
    cases negated <;> simp_all [← hrest, caretLength]
  obtain ⟨issues, stop, hset, hstep⟩ := setStep_ok (hdrop.symm ▸ h after) st pos
  rw [hdrop] at hset
  exact ⟨issues, _, _, stop, hset, by simpa [Regexp.step] using hstep⟩

end

section
variable {member : String → Char → Prop} {S : Char → Prop}

theorem Tells.congr {S' : Char → Prop} (h : Tells member first cs S) (hS : ∀ c, S c ↔ S' c) :
    Tells member first cs S' := by
  obtain ⟨es, hes, hall⟩ := h
  exact ⟨es, hes, fun c => (hall c).trans (hS c)⟩

theorem Tells.close : Tells member false [']'] fun _ => False :=
  ⟨[], Lists.close, by simp⟩

theorem tells_cons (h : Lists first cs (e :: es))
    (hall : ∀ c, (∃ e ∈ es, e.Matches member c) ↔ S c) :
    Tells member first cs fun x => e.Matches member x ∨ S x :=
  ⟨e :: es, h, fun x => by simp [hall]⟩

theorem Tells.single (h : Tells member false cs S) (hc : c ≠ ']' ∨ first = true)
    (hb : Behind c cs) : Tells member first (c :: cs) fun x => x = c ∨ S x := by
  obtain ⟨es, hes, hall⟩ := h
  refine (tells_cons (Lists.single hes hc hb) hall).congr fun x => or_congr ?_ Iff.rfl
  exact ⟨fun hx => Char.le_antisymm hx.2 hx.1, fun hx => hx ▸ ⟨Char.le_refl _, Char.le_refl _⟩⟩

/-- A set whose elements are told is a single item, which matches them, or all others when a caret
precedes them. -/
theorem Tells.set (h : Tells member true cs S) (negated : Bool)
    (hneg : negated = false → cs.head? ≠ some '^') :
    Denotes member ('[' :: ((if negated then ['^'] else []) ++ cs)) fun c =>
      S c ↔ negated = false := by
  obtain ⟨es, hes, hall⟩ := h
  constructor
  · intro st before pos after
    obtain ⟨issues, _, _, _, _, hstep⟩ := Lists.step hes negated hneg st before pos after
    exact ⟨'[', _, _, rfl, hstep, rfl⟩
  · obtain ⟨x, cs, rfl⟩ := List.exists_cons_of_ne_nil (Lists.ne_nil hes)
    generalize hrest : (if negated then ['^'] else []) ++ x :: cs = rest
    have hhead : (rest.head? == some '^') = negated := by
      cases negated <;> simp_all [← hrest]
    have hdrop : rest.drop (caretLength rest) = x :: cs := by
      cases negated <;> simp_all [← hrest, caretLength]
    have hes := hes []
    rw [List.append_nil, ← hdrop] at hes
    refine ⟨.set negated es, ?_, fun c => by simp [Reading.Matches, hall]⟩
    unfold reading?
    split <;> simp_all

end

end PatternLint.Pattern.Regexp
