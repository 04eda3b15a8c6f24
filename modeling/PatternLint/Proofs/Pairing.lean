import PatternLint.Proofs.AgreementRx
import PatternLint.Proofs.AgreementSequence
import PatternLint.Proofs.Supervision

/-! Frames and closures of two stores that stand for each other. -/

namespace PatternLint

/-- Twins bind the same names. A shadow, in the first store, shows the same as the frame that it
stands for, and has no twin. -/
structure Pairing where
  twins : FrameId → FrameId → Prop
  shadows : FrameId → FrameId → Prop
  serials : Nat → Nat → Prop
  twins_iff : ∀ ⦃i i' j j'⦄, twins i i' → twins j j' → (i = j ↔ i' = j')
  serials_iff : ∀ ⦃k k' l l'⦄, serials k k' → serials l l' → (k = l ↔ k' = l')
  apart : ∀ ⦃i i' j'⦄, shadows i i' → ¬twins i j'

/-- Closures that stand for themselves stand for no others. -/
theorem Store.own_serials_iff (s : Store) ⦃k k' l l' : Nat⦄ (hk : k = k' ∧ k < s.closures)
    (hl : l = l' ∧ l < s.closures) : k = l ↔ k' = l' := by
  rw [hk.1, hl.1]

namespace Pairing

def labels (w : Pairing) : Labels :=
  ⟨fun i i' => w.twins i i' ∨ w.shadows i i', w.serials⟩

/-- Nothing stands for anything. -/
def empty : Pairing where
  twins _ _ := False
  shadows _ _ := False
  serials _ _ := False
  twins_iff _ _ _ _ h := h.elim
  serials_iff _ _ _ _ h := h.elim
  apart _ _ _ h := h.elim

structure Grows (w w' : Pairing) : Prop where
  twins : ∀ ⦃i i'⦄, w.twins i i' → w'.twins i i'
  shadows : ∀ ⦃i i'⦄, w.shadows i i' → w'.shadows i i'
  serials : ∀ ⦃k k'⦄, w.serials k k' → w'.serials k k'

instance order : Preorder Pairing where
  le := Grows
  le_refl _ := ⟨fun _ _ => id, fun _ _ => id, fun _ _ => id⟩
  le_trans _ _ _ h h' := ⟨fun _ _ hi => h'.twins (h.twins hi),
    fun _ _ hi => h'.shadows (h.shadows hi), fun _ _ hk => h'.serials (h.serials hk)⟩

variable {w w' : Pairing} {tolerant : Prop} {i i' j j' : FrameId} {name : String} {v v' : Value}

/-- Frames that belong together stay so. -/
theorem Grows.frames (h : w.Grows w') : ∀ i i', w.labels.frames i i' → w'.labels.frames i i' :=
  fun _ _ => Or.imp (h.twins ·) (h.shadows ·)

theorem faithful (w : Pairing) : w.labels.Faithful :=
  w.serials_iff

/-- Two frames that stand for no other ones become twins. -/
def withTwins (w : Pairing) (n n' : Nat) (h : ∀ i i', w.labels.frames i i' → i ≠ n ∧ i' ≠ n') :
    Pairing where
  twins i i' := w.twins i i' ∨ i = n ∧ i' = n'
  shadows := w.shadows
  serials := w.serials
  twins_iff := by
    rintro i i' j j' (hi | ⟨rfl, rfl⟩) (hj | ⟨rfl, rfl⟩)
    · exact w.twins_iff hi hj
    · have := h _ _ (.inl hi)
      exact iff_of_false this.1 this.2
    · have := h _ _ (.inl hj)
      exact iff_of_false this.1.symm this.2.symm
    · simp
  serials_iff := w.serials_iff
  apart := by
    rintro i i' j' hi (hj | ⟨rfl, rfl⟩)
    · exact w.apart hi hj
    · exact (h _ _ (.inr hi)).1 rfl

/-- Two new frames become twins; neither belonged to any before. -/
theorem le_withTwins {n n' : Nat} (h : ∀ i i', w.labels.frames i i' → i ≠ n ∧ i' ≠ n') :
    w ≤ w.withTwins n n' h :=
  ⟨fun _ _ => .inl, fun _ _ => id, fun _ _ => id⟩

/-- A new frame becomes a shadow. -/
def withShadow (w : Pairing) (n i' : Nat) (h : ∀ i i', w.labels.frames i i' → i < n) : Pairing where
  twins := w.twins
  shadows i j' := w.shadows i j' ∨ i = n ∧ j' = i'
  serials := w.serials
  twins_iff := w.twins_iff
  serials_iff := w.serials_iff
  apart := by
    rintro i i' j' (hi | ⟨rfl, rfl⟩) hj
    · exact w.apart hi hj
    · exact Nat.lt_irrefl _ (h _ _ (.inl hj))

/-- A frame of the first side alone stands for one that the second has already. -/
theorem le_withShadow {n : Nat} (h : ∀ i i', w.labels.frames i i' → i < n) (i' : FrameId) :
    w ≤ w.withShadow n i' h :=
  ⟨fun _ _ => id, fun _ _ => .inl, fun _ _ => id⟩

/-- Frames that stand for others only since `w'` are from `n` on. -/
def Adds (w w' : Pairing) (n : FrameId) : Prop :=
  ∀ i i', w'.labels.frames i i' → w.labels.frames i i' ∨ n ≤ i

/-- The only frames that stand for each other since `w'` are two new ones. -/
def AddsPair (w w' : Pairing) (n n' : FrameId) : Prop :=
  ∀ i i', w'.labels.frames i i' → w.labels.frames i i' ∨ i = n ∧ i' = n'

theorem AddsPair.adds {n n' : FrameId} (h : w.AddsPair w' n n') : w.Adds w' n :=
  fun i i' hi => (h i i' hi).imp id fun hn => Nat.le_of_eq hn.1.symm

/-- Two new closures. -/
def withSerials (w : Pairing) (n n' : Nat) (h : ∀ k k', w.serials k k' → k < n ∧ k' < n') :
    Pairing where
  twins := w.twins
  shadows := w.shadows
  serials k k' := w.serials k k' ∨ k = n ∧ k' = n'
  twins_iff := w.twins_iff
  serials_iff := by
    rintro k k' l l' (hk | ⟨rfl, rfl⟩) (hl | ⟨rfl, rfl⟩)
    · exact w.serials_iff hk hl
    · have := h _ _ hk
      exact iff_of_false (Nat.ne_of_lt this.1) (Nat.ne_of_lt this.2)
    · have := h _ _ hl
      exact iff_of_false (Nat.ne_of_gt this.1) (Nat.ne_of_gt this.2)
    · simp
  apart := w.apart

theorem le_withSerials {n n' : Nat} (h : ∀ k k', w.serials k k' → k < n ∧ k' < n') :
    w ≤ w.withSerials n n' h :=
  ⟨fun _ _ => id, fun _ _ => id, fun _ _ => .inl⟩

theorem Grows.loose (h : w.Grows w') (hv : Loose tolerant w.labels v v') :
    Loose tolerant w'.labels v v' :=
  hv.imp (Matches.mono h.frames h.serials) id

end Pairing

theorem rel_imp {α : Type} {R Q : α → α → Prop} (hRQ : ∀ a b, R a b → Q a b) {o o' : Option α}
    (h : Option.Rel R o o') : Option.Rel Q o o' := by
  cases h with
  | none => exact .none
  | some h => exact .some (hRQ _ _ h)

theorem rel_bind {α β : Type} {R : α → α → Prop} {Q : β → β → Prop} {o o' : Option α}
    {k k' : α → Option β} (h : Option.Rel R o o') (hk : ∀ a b, R a b → Option.Rel Q (k a) (k' b)) :
    Option.Rel Q (o.bind k) (o'.bind k') := by
  cases h with
  | none => exact .none
  | some h => exact hk _ _ h

theorem rel_isSome {α : Type} {R : α → α → Prop} {o o' : Option α} (h : Option.Rel R o o') :
    o.isSome = o'.isSome := by
  cases h <;> rfl

theorem eq_none_of_rel {α : Type} {R : α → α → Prop} {o : Option α} (h : Option.Rel R o none) :
    o = none := by
  cases h
  rfl

theorem rel_eq {α : Type} {R : α → α → Prop} {o o' : Option α} (h : Option.Rel R o o')
    (hR : ∀ a ∈ o, ∀ b, R a b → a = b) : o = o' := by
  cases h with
  | none => rfl
  | some h => rw [hR _ rfl _ h]

/-- Bindings of the same names to values that are the same as far as they are known. -/
abbrev SameBindings (tolerant : Prop) (c : Labels) :
    List (String × Value) → List (String × Value) → Prop :=
  List.Forall₂ fun b b' => b.1 = b'.1 ∧ Loose tolerant c b.2 b'.2

namespace SameBindings

variable {c : Labels} {tolerant : Prop} {name : String} {v v' : Value}
  {bs bs' : List (String × Value)}

/-- A variable is bound on both sides or on neither. -/
theorem lookup (h : SameBindings tolerant c bs bs') (name : String) :
    Option.Rel (Loose tolerant c) (bs.lookup name) (bs'.lookup name) := by
  induction h with
  | nil => exact .none
  | @cons b b' _ _ hb _ ih =>
    rw [List.lookup_cons, List.lookup_cons, hb.1]
    cases name == b'.1 with
    | true => exact .some hb.2
    | false => exact ih

/-- A variable that is assigned alike keeps the bindings alike. -/
theorem putEntry (h : SameBindings tolerant c bs bs') (hv : Loose tolerant c v v') (name : String) :
    SameBindings tolerant c (Table.putEntry name v bs) (Table.putEntry name v' bs') := by
  induction h with
  | nil => exact .cons ⟨rfl, hv⟩ .nil
  | @cons b b' _ _ hb hbs ih =>
    obtain ⟨hname, hb⟩ := hb
    rw [Table.putEntry, Table.putEntry, hname]
    split
    · exact .cons ⟨rfl, hv⟩ hbs
    · exact .cons ⟨rfl, hb⟩ ih

theorem ofList (h : SameBindings tolerant c bs bs') :
    SameBindings tolerant c (Table.ofList bs).entries (Table.ofList bs').entries := by
  have hput : ∀ (t t' : Table Value), SameBindings tolerant c t.entries t'.entries →
      SameBindings tolerant c (bs.foldl (fun t b => t.put b.1 b.2) t).entries
        (bs'.foldl (fun t b => t.put b.1 b.2) t').entries := by
    induction h with
    | nil => exact fun _ _ ht => ht
    | @cons b b' _ _ hb _ ih =>
      intro t t' ht
      rw [List.foldl_cons, List.foldl_cons, hb.1]
      exact ih _ _ (putEntry ht hb.2 b'.1)
  exact hput _ _ .nil

end SameBindings

namespace LambdaList

variable {c : Labels} {tolerant : Prop} {mode : Mode} {ss : List Spec} {vs vs' : List Value}

theorem next_loose (h : List.Forall₂ (Loose tolerant c) vs vs') :
    Loose tolerant c (next vs).1 (next vs').1 ∧
      List.Forall₂ (Loose tolerant c) (next vs).2 (next vs').2 := by
  cases h with
  | nil => exact ⟨.inl .nil, .nil⟩
  | cons h hs => exact ⟨h, hs⟩

/-- Where a value may be unknown on one side only, a list of values needs all of them known. -/
theorem ofList_loose (hk : tolerant → (∀ v ∈ vs, v ≠ .unknown) ∧ ∀ v ∈ vs', v ≠ .unknown)
    (h : List.Forall₂ (Loose tolerant c) vs vs') :
    Matches c (Value.ofList vs) (Value.ofList vs') := by
  refine .ofList ?_
  induction h with
  | nil => exact .nil
  | cons hv _ ih =>
    refine .cons (hv.resolve_right ?_) (ih fun ht => ?_)
    · rintro ⟨ht, hu⟩
      exact hu.elim ((hk ht).1 _ (.head _)) ((hk ht).2 _ (.head _))
    · exact ⟨fun v hv => (hk ht).1 v (.tail _ hv), fun v hv => (hk ht).2 v (.tail _ hv)⟩

/-- A parameter takes the next argument, or all that are left in a list. -/
theorem take_loose (listed : Bool)
    (hk : tolerant → mode = .rest → (∀ v ∈ vs, v ≠ .unknown) ∧ ∀ v ∈ vs', v ≠ .unknown)
    (h : List.Forall₂ (Loose tolerant c) vs vs') :
    Loose tolerant c (take mode listed vs).1 (take mode listed vs').1 ∧
      List.Forall₂ (Loose tolerant c) (take mode listed vs).2 (take mode listed vs').2 := by
  cases mode with
  | rest => exact ⟨.inl (ofList_loose (fun ht => hk ht rfl) h), .nil⟩
  | untracked => exact ⟨.inl .unknown, h⟩
  | optional => exact next_loose h
  | required =>
    cases listed with
    | false => exact next_loose h
    | true => exact ⟨.inl .unknown, List.forall₂_drop 1 h⟩

/-- Where a value may be unknown on one side only, the arguments that are
gathered have to be known. -/
theorem bindSpecs_loose
    (hk : tolerant → (∀ v ∈ gathered mode ss vs, v ≠ .unknown) ∧
      ∀ v ∈ gathered mode ss vs', v ≠ .unknown)
    (h : List.Forall₂ (Loose tolerant c) vs vs') :
    SameBindings tolerant c (bindSpecs mode ss vs) (bindSpecs mode ss vs') := by
  induction ss generalizing mode vs vs' with
  | nil => exact .nil
  | cons spec ss ih =>
    -- what a parameter takes, and what it leaves to those behind it
    have hstep : ∀ listed, (tolerant →
          (∀ v ∈ (if mode = .rest then vs else []) ++ gathered mode ss (take mode listed vs).2,
            v ≠ .unknown) ∧
          ∀ v ∈ (if mode = .rest then vs' else []) ++ gathered mode ss (take mode listed vs').2,
            v ≠ .unknown) →
        Loose tolerant c (take mode listed vs).1 (take mode listed vs').1 ∧
          SameBindings tolerant c (bindSpecs mode ss (take mode listed vs).2)
            (bindSpecs mode ss (take mode listed vs').2) := by
      intro listed hk
      simp only [List.forall_mem_append] at hk
      have hhere : tolerant → mode = .rest →
          (∀ v ∈ vs, v ≠ .unknown) ∧ ∀ v ∈ vs', v ≠ .unknown := by
        intro ht hm
        simp only [if_pos hm] at hk
        exact ⟨(hk ht).1.1, (hk ht).2.1⟩
      obtain ⟨hv, hleft⟩ := take_loose listed hhere h
      exact ⟨hv, ih (fun ht => ⟨(hk ht).1.2, (hk ht).2.2⟩) hleft⟩
    cases spec with
    | keyword mode' => exact ih hk h
    | pattern => exact ih hk h
    | plain name =>
      obtain ⟨hv, hrest⟩ := hstep false hk
      exact .cons ⟨rfl, hv⟩ hrest
    | listed name =>
      obtain ⟨hv, hrest⟩ := hstep true hk
      exact .cons ⟨rfl, hv⟩ hrest

end LambdaList

/-- Frames that bind the same names and lie inside frames that stand for each other. -/
structure Frame.Alike (tolerant : Prop) (c : Labels) (i i' : FrameId) (f f' : Frame) : Prop where
  vars : SameBindings tolerant c f.vars.entries f'.vars.entries
  outer : Option.Rel c.frames f.outer f'.outer
  inside : ∀ o ∈ f.outer, o < i
  inside' : ∀ o ∈ f'.outer, o < i'

/-- Stores in which all that stands for each other is the same as far as it is known. -/
structure Store.Alike (tolerant : Prop) (w : Pairing) (s s' : Store) : Prop where
  twins : ∀ ⦃i i'⦄, w.twins i i' → ∃ f f', s.frames[i]? = some f ∧ s'.frames[i']? = some f' ∧
    f.Alike tolerant w.labels i i' f'
  shadows : ∀ ⦃i i'⦄, w.shadows i i' → ∃ o, s.frames[i]? = some ⟨.empty, some o⟩ ∧ o < i ∧
    w.labels.frames o i'
  serials : ∀ ⦃k k'⦄, w.serials k k' → k < s.closures ∧ k' < s'.closures
  globals : ∀ name, Option.Rel (Global.Same tolerant w.labels) (s.globals.get? name)
    (s'.globals.get? name)

theorem Frame.Alike.mono {tolerant : Prop} {w w' : Pairing} {i i' : FrameId} {f f' : Frame}
    (hw : w ≤ w') (h : f.Alike tolerant w.labels i i' f') : f.Alike tolerant w'.labels i i' f' where
  vars := h.vars.imp fun _ _ hb => ⟨hb.1, hw.loose hb.2⟩
  outer := rel_imp hw.frames h.outer
  inside := h.inside
  inside' := h.inside'

theorem Global.Same.mono {tolerant : Prop} {w w' : Pairing} {g g' : Global} (hw : w ≤ w')
    (h : Global.Same tolerant w.labels g g') : Global.Same tolerant w'.labels g g' := by
  cases h with
  | pending he => exact .pending (he.mono hw.frames hw.serials)
  | busy he => exact .busy (he.mono hw.frames hw.serials)
  | known hv => exact .known (hw.loose hv)

/-- Nothing that was there has changed. -/
structure Store.Kept (s t : Store) : Prop where
  frames : Keeps s.frames.size s.frames t.frames
  closures : s.closures ≤ t.closures
  globals : t.globals = s.globals

theorem Store.Kept.refl (s : Store) : s.Kept s :=
  ⟨Keeps.refl (Nat.le_refl _), Nat.le_refl _, rfl⟩

namespace Store.Alike

variable {tolerant : Prop} {w w' : Pairing} {s s' t t' : Store} {i i' : FrameId} {name : String}
  {v v' : Value} {f f' : Frame}

/-- Frames that are alike bind the same names. -/
theorem contains_eq (h : f.Alike tolerant w.labels i i' f') (name : String) :
    f.vars.contains name = f'.vars.contains name :=
  rel_isSome (h.vars.lookup name)

/-- Names are found in frames that are twins. -/
theorem find (h : s.Alike tolerant w s') (hi : w.labels.frames i i') (name : String) :
    Option.Rel w.twins (s.frames.find? name i) (s'.frames.find? name i') := by
  induction hn : i using Nat.strongRecOn generalizing i i' with
  | _ n ih =>
    subst hn
    rcases hi with hi | hi
    · obtain ⟨⟨vars, outer⟩, ⟨vars', outer'⟩, hf, hf', halike⟩ := h.twins hi
      rw [Frames.find?, Frames.find?, hf, hf']
      simp only [contains_eq halike name]
      split
      · exact .some hi
      · obtain ⟨-, hout, hin, hin'⟩ := halike
        cases hout with
        | none => exact .none
        | @some o o' ho =>
          simp only [if_pos (hin o rfl), if_pos (hin' o' rfl)]
          exact ih o (hin o rfl) ho rfl
    · obtain ⟨o, hf, ho, hoi⟩ := h.shadows hi
      rw [Frames.find?, hf]
      simp only [Table.contains, Table.get?_empty, Option.isSome_none, if_pos ho]
      exact ih o ho hoi rfl

theorem lookup (h : s.Alike tolerant w s') (hi : w.labels.frames i i') (name : String) :
    Option.Rel (Loose tolerant w.labels) (s.frames.lookup? name i) (s'.frames.lookup? name i') := by
  refine rel_bind (h.find hi name) fun o o' ho => ?_
  obtain ⟨f, f', hf, hf', halike⟩ := h.twins ho
  simp only [Frames.valueIn?, hf, hf', Option.bind_some]
  exact halike.vars.lookup name

/-- Twins stay so when both bind a name. -/
theorem define (h : s.Alike tolerant w s') (hi : w.twins i i') (hv : Loose tolerant w.labels v v')
    (name : String) : Store.Alike tolerant w { s with frames := s.frames.define i name v }
      { s' with frames := s'.frames.define i' name v' } where
  twins := by
    intro j j' hj
    obtain ⟨f, f', hf, hf', halike⟩ := h.twins hj
    by_cases he : j = i
    · have he' := (w.twins_iff hj hi).1 he
      subst he he'
      refine ⟨{ f with vars := f.vars.put name v }, { f' with vars := f'.vars.put name v' }, ?_, ?_,
        halike.vars.putEntry hv name, halike.outer, halike.inside, halike.inside'⟩
      · rw [Frames.getElem?_define_self, hf, Option.map_some]
      · rw [Frames.getElem?_define_self, hf', Option.map_some]
    · have he' := fun he' => he ((w.twins_iff hj hi).2 he')
      refine ⟨f, f', ?_, ?_, halike⟩
      · rw [Frames.getElem?_define_of_ne he, hf]
      · rw [Frames.getElem?_define_of_ne he', hf']
  shadows := by
    intro j j' hj
    have hne : j ≠ i := fun he => w.apart hj (he ▸ hi)
    rw [Frames.getElem?_define_of_ne hne]
    exact h.shadows hj
  serials := h.serials
  globals := h.globals

/-- Globals are kept apart from frames. -/
theorem putGlobal {g g' : Global} (h : s.Alike tolerant w s')
    (hg : Global.Same tolerant w.labels g g') (name : String) :
    Store.Alike tolerant w { s with globals := s.globals.put name g }
      { s' with globals := s'.globals.put name g' } where
  twins := h.twins
  shadows := h.shadows
  serials := h.serials
  globals := by
    intro k
    rw [Table.get?_put, Table.get?_put]
    split
    · exact .some hg
    · exact h.globals k

theorem twins_lt (h : s.Alike tolerant w s') (hi : w.twins i i') :
    i < s.frames.size ∧ i' < s'.frames.size := by
  obtain ⟨f, f', hf, hf', -⟩ := h.twins hi
  exact ⟨(Array.getElem?_eq_some_iff.1 hf).1, (Array.getElem?_eq_some_iff.1 hf').1⟩

theorem frames_lt (h : s.Alike tolerant w s') (hi : w.labels.frames i i') :
    i < s.frames.size ∧ i' < s'.frames.size := by
  induction hn : i using Nat.strongRecOn generalizing i i' with
  | _ n ih =>
    subst hn
    rcases hi with hi | hi
    · exact h.twins_lt hi
    · obtain ⟨o, hf, ho, hoi⟩ := h.shadows hi
      exact ⟨(Array.getElem?_eq_some_iff.1 hf).1, (ih o ho hoi rfl).2⟩

/-- What stands for each other stays alike in a larger pairing, and when frames are added. -/
theorem grow (h : s.Alike tolerant w s') (hw : w ≤ w')
    (ht : ∀ ⦃i i'⦄, w'.twins i i' → w.twins i i' ∨ ∃ f f', t.frames[i]? = some f ∧
      t'.frames[i']? = some f' ∧ f.Alike tolerant w'.labels i i' f')
    (hs : ∀ ⦃i i'⦄, w'.shadows i i' → w.shadows i i' ∨ ∃ o, t.frames[i]? = some ⟨.empty, some o⟩ ∧
      o < i ∧ w'.labels.frames o i')
    (hk : ∀ ⦃k k'⦄, w'.serials k k' → k < t.closures ∧ k' < t'.closures) (hst : s.Kept t)
    (hst' : s'.Kept t') : t.Alike tolerant w' t' where
  twins := by
    intro i i' hi
    rcases ht hi with hi | hi
    · obtain ⟨f, f', hf, hf', halike⟩ := h.twins hi
      obtain ⟨hlt, hlt'⟩ := h.twins_lt hi
      refine ⟨f, f', ?_, ?_, halike.mono hw⟩
      · rw [hst.frames.same i hlt, hf]
      · rw [hst'.frames.same i' hlt', hf']
    · exact hi
  shadows := by
    intro i i' hi
    rcases hs hi with hi | hi
    · obtain ⟨o, hf, ho, hoi⟩ := h.shadows hi
      refine ⟨o, ?_, ho, hw.frames _ _ hoi⟩
      rw [hst.frames.same i (h.frames_lt (.inr hi)).1, hf]
    · exact hi
  serials := hk
  globals := by
    intro name
    rw [hst.globals, hst'.globals]
    exact rel_imp (fun _ _ => Global.Same.mono hw) (h.globals name)

theorem kept_push (s : Store) (frame : Frame) :
    s.Kept { s with frames := s.frames.push frame } where
  frames := (Keeps.refl (Nat.le_refl _)).push frame
  closures := Nat.le_refl _
  globals := rfl

/-- New frames of matching outer ones are twins from here on. -/
theorem newFrame {o o' : Option FrameId} {bs bs' : List (String × Value)}
    (h : s.Alike tolerant w s') (ho : Option.Rel w.labels.frames o o')
    (hb : SameBindings tolerant w.labels bs bs') :
    ∃ w', w ≤ w' ∧ w.AddsPair w' s.frames.size s'.frames.size ∧
      w'.twins s.frames.size s'.frames.size ∧
          Store.Alike tolerant w' { s with frames := s.frames.push ⟨.ofList bs, o⟩ }
        { s' with frames := s'.frames.push ⟨.ofList bs', o'⟩ } := by
  have hlt : ∀ i i', w.labels.frames i i' → i < s.frames.size ∧ i' < s'.frames.size :=
    fun _ _ => h.frames_lt
  have hw := w.le_withTwins fun i i' hi => (hlt i i' hi).imp Nat.ne_of_lt Nat.ne_of_lt
  refine ⟨_, hw, ?_, .inr ⟨rfl, rfl⟩, h.grow hw ?_ (fun _ _ => .inl) (fun _ _ hk => h.serials hk)
    (kept_push s _) (kept_push s' _)⟩
  · rintro i i' ((hi | hn) | hi)
    · exact .inl (.inl hi)
    · exact .inr hn
    · exact .inl (.inr hi)
  rintro i i' (hi | ⟨rfl, rfl⟩)
  · exact .inl hi
  · refine .inr ⟨_, _, Array.getElem?_push_size, Array.getElem?_push_size, ?_⟩
    refine Frame.Alike.mono hw ⟨hb.ofList, ho, ?_, ?_⟩
    · rintro o rfl
      cases ho with
      | some ho => exact (hlt _ _ ho).1
    · rintro o' rfl
      cases ho with
      | some ho => exact (hlt _ _ ho).2

/-- A frame of its own on the first side is looked through to what it stands for. -/
theorem newShadow {o : FrameId} (h : s.Alike tolerant w s') (ho : w.labels.frames o i') :
    ∃ w', w ≤ w' ∧ w.Adds w' s.frames.size ∧ w'.shadows s.frames.size i' ∧
      Store.Alike tolerant w' { s with frames := s.frames.push ⟨.ofList [], some o⟩ } s' := by
  have hlt : ∀ i i', w.labels.frames i i' → i < s.frames.size := fun _ _ hi => (h.frames_lt hi).1
  have hw := w.le_withShadow hlt i'
  refine ⟨_, hw, ?_, .inr ⟨rfl, rfl⟩, h.grow hw (fun _ _ => .inl) ?_ (fun _ _ hk => h.serials hk)
    (kept_push s _) (.refl s')⟩
  · rintro i j' (hi | hi | ⟨rfl, -⟩)
    · exact .inl (.inl hi)
    · exact .inl (.inr hi)
    · exact .inr (Nat.le_refl _)
  rintro i j' (hi | ⟨rfl, rfl⟩)
  · exact .inl hi
  · exact .inr ⟨o, Array.getElem?_push_size, (h.frames_lt ho).1, hw.frames _ _ ho⟩

/-- The serial numbers of closures are drawn side by side. -/
theorem newClosure (h : s.Alike tolerant w s') :
    ∃ w', w ≤ w' ∧ (∀ i i', w'.labels.frames i i' → w.labels.frames i i') ∧
      w'.serials s.closures s'.closures ∧
      Store.Alike tolerant w' { s with closures := s.closures + 1 }
        { s' with closures := s'.closures + 1 } := by
  have hw := w.le_withSerials fun _ _ hk => h.serials hk
  refine ⟨_, hw, fun _ _ => id, .inr ⟨rfl, rfl⟩, h.grow hw (fun _ _ => .inl) (fun _ _ => .inl) ?_
    ⟨Keeps.refl (Nat.le_refl _), Nat.le_succ _, rfl⟩
    ⟨Keeps.refl (Nat.le_refl _), Nat.le_succ _, rfl⟩⟩
  rintro k k' (hk | ⟨rfl, rfl⟩)
  · have := h.serials hk
    exact ⟨Nat.lt_succ_of_lt this.1, Nat.lt_succ_of_lt this.2⟩
  · exact ⟨Nat.lt_succ_self _, Nat.lt_succ_self _⟩

/-- What was there stays alike while nothing of it changes. -/
theorem kept (h : s.Alike tolerant w s') (ht : s.Kept t) (ht' : s'.Kept t') :
    t.Alike tolerant w t' :=
  h.grow le_rfl (fun _ _ => .inl) (fun _ _ => .inl)
    (fun _ _ hk => ⟨Nat.lt_of_lt_of_le (h.serials hk).1 ht.closures,
      Nat.lt_of_lt_of_le (h.serials hk).2 ht'.closures⟩) ht ht'

end Store.Alike

/-- A store without its global variables. -/
def Store.bare (s : Store) : Store :=
  { s with globals := .empty }

/-- The same global variables, as far as they are known. -/
def SameGlobals (tolerant : Prop) (w : Pairing) (T T' : Table Global) : Prop :=
  ∀ name, Option.Rel (Global.Same tolerant w.labels) (T.get? name) (T'.get? name)

theorem SameGlobals.mono {tolerant : Prop} {w w' : Pairing} {T T' : Table Global} (hw : w ≤ w')
    (h : SameGlobals tolerant w T T') : SameGlobals tolerant w' T T' :=
  fun name => rel_imp (fun _ _ => Global.Same.mono hw) (h name)

/-- A global that is changed on both sides alike. -/
theorem SameGlobals.put {tolerant : Prop} {w : Pairing} {T T' : Table Global} {g g' : Global}
    (h : SameGlobals tolerant w T T') (hg : Global.Same tolerant w.labels g g') (name : String) :
    SameGlobals tolerant w (T.put name g) (T'.put name g') := by
  intro k
  rw [Table.get?_put, Table.get?_put]
  split
  · exact .some hg
  · exact h k

theorem Table.IsPlain.same {T : Table Global} (h : T.IsPlain) (tolerant : Prop) (w : Pairing) :
    SameGlobals tolerant w T T := by
  intro name
  cases hg : T.get? name with
  | none => exact .none
  | some g => exact .some ((h name g hg).same _ _)

theorem Store.Alike.bare {tolerant : Prop} {w : Pairing} {s s' : Store}
    (h : s.Alike tolerant w s') : s.bare.Alike tolerant w s'.bare :=
  ⟨h.twins, h.shadows, h.serials, fun _ => .none⟩

theorem Store.bare_alike_empty {tolerant : Prop} (s s' : Store) :
    s.bare.Alike tolerant .empty s'.bare :=
  ⟨fun _ _ h => h.elim, fun _ _ h => h.elim, fun _ _ h => h.elim, fun _ => .none⟩

/-- Stores are alike if they are so without globals, and their globals are. -/
theorem Store.Alike.of_bare {tolerant : Prop} {w : Pairing} {s s' : Store}
    (h : s.bare.Alike tolerant w s'.bare) (hg : SameGlobals tolerant w s.globals s'.globals) :
    s.Alike tolerant w s' :=
  ⟨h.twins, h.shadows, h.serials, hg⟩

/-- Two stores as they are before evaluations, and the frames in them that these get to see. All
other frames stay as they are. -/
structure Fence where
  inside : Pairing
  first : Frames
  second : Frames

namespace Fence

/-- Frames that stand for each other are inside or new, and those outside are as they were. -/
structure Keeps (F : Fence) (w : Pairing) (fs fs' : Frames) : Prop where
  new : ∀ i i', w.labels.frames i i' →
    F.inside.labels.frames i i' ∨ F.first.size ≤ i ∧ F.second.size ≤ i'
  size : F.first.size ≤ fs.size ∧ F.second.size ≤ fs'.size
  first : ∀ i < F.first.size, (∀ i', ¬F.inside.labels.frames i i') → fs[i]? = F.first[i]?
  second : ∀ i' < F.second.size, (∀ i, ¬F.inside.labels.frames i i') → fs'[i']? = F.second[i']?

/-- Nothing is outside. -/
def none : Fence :=
  ⟨.empty, #[], #[]⟩

theorem none_keeps (w : Pairing) (fs fs' : Frames) : none.Keeps w fs fs' where
  new _ _ _ := .inr ⟨Nat.zero_le _, Nat.zero_le _⟩
  size := ⟨Nat.zero_le _, Nat.zero_le _⟩
  first _ h := (Nat.not_lt_zero _ h).elim
  second _ h := (Nat.not_lt_zero _ h).elim

namespace Keeps

variable {F : Fence} {w w' : Pairing} {fs fs' : Frames}

theorem push (h : F.Keeps w fs fs') (hw : w.AddsPair w' fs.size fs'.size) (f f' : Frame) :
    F.Keeps w' (fs.push f) (fs'.push f') where
  new i i' hi := by
    rcases hw i i' hi with hi | ⟨rfl, rfl⟩
    · exact h.new i i' hi
    · exact .inr h.size
  size := by
    rw [Array.size_push, Array.size_push]
    exact ⟨Nat.le_succ_of_le h.size.1, Nat.le_succ_of_le h.size.2⟩
  first i hi ho := by
    rw [Array.getElem?_push, if_neg (Nat.ne_of_lt (Nat.lt_of_lt_of_le hi h.size.1))]
    exact h.first i hi ho
  second i hi ho := by
    rw [Array.getElem?_push, if_neg (Nat.ne_of_lt (Nat.lt_of_lt_of_le hi h.size.2))]
    exact h.second i hi ho

theorem define {i i' : FrameId} (h : F.Keeps w fs fs') (hi : w.twins i i') (name : String)
    (v v' : Value) : F.Keeps w (fs.define i name v) (fs'.define i' name v') where
  new := h.new
  size := by
    rw [Frames.size_define, Frames.size_define]
    exact h.size
  first j hj ho := by
    have hne : j ≠ i := by
      rintro rfl
      exact (h.new j i' (.inl hi)).elim (ho i') fun hle => Nat.not_le_of_lt hj hle.1
    rw [Frames.getElem?_define_of_ne hne]
    exact h.first j hj ho
  second j hj ho := by
    have hne : j ≠ i' := by
      rintro rfl
      exact (h.new i j (.inl hi)).elim (ho i) fun hle => Nat.not_le_of_lt hj hle.2
    rw [Frames.getElem?_define_of_ne hne]
    exact h.second j hj ho

theorem grow (h : F.Keeps w fs fs') (hw : ∀ i i', w'.labels.frames i i' → w.labels.frames i i') :
    F.Keeps w' fs fs' :=
  ⟨fun i i' hi => h.new i i' (hw i i' hi), h.size, h.first, h.second⟩

end Keeps

end Fence

/-- What there is to evaluations besides frames: a state that the first goes through, which states
are astray, and how the tables of global variables are related in a state. -/
structure Course (tolerant : Prop) where
  State : Type
  [order : Preorder State]
  stray : State → Prop := fun _ => False
  stray_mono : ∀ ⦃x x'⦄, x ≤ x' → stray x → stray x' := by exact fun _ _ _ h => h
  stray_strict : ∀ ⦃x⦄, stray x → ¬tolerant := by exact fun _ h => h.elim
  tables : Pairing → State → Table Global → Table Global → Prop
  tables_mono : ∀ ⦃w w' x T T'⦄, w ≤ w' → tables w x T T' → tables w' x T T'

attribute [instance] Course.order

/-- The course of evaluations that have the same global variables all the time. -/
def Course.same (tolerant : Prop) : Course tolerant where
  State := Unit
  order := PUnit.instLinearOrder.toPreorder
  tables w _ := SameGlobals tolerant w
  tables_mono _ _ _ _ _ hw h := h.mono hw

namespace Simulation

/-- Scopes in which the same may be assigned. What definitions there are, and the
limit of loops, have `G`. -/
structure SameScopeIn (G : Definitions → Nat → Prop) (w : Pairing) (c c' : Scope) : Prop where
  root : w.twins c.root c'.root
  rest : c' = { c with root := c'.root }
  given : G c.defs c.loopLimit

/-- Scopes in which the same may be assigned, and definitions are free of closures. -/
abbrev SameScope : Pairing → Scope → Scope → Prop :=
  SameScopeIn fun defs _ => defs.IsPlain

section Plain

variable {S : Simulation} {ev ev' : Evaluator} {w : S.World} {f f' : Value}
  {args args' : List Value}

/-- Where nothing is tolerated, values are unknown on both sides or on none. -/
theorem Follows.loosely (ht : ¬S.tolerant) (hev : S.Follows ev ev') : S.FollowsLoosely ev ev' :=
  fun _ _ _ _ _ _ _ hx hat s s' hs =>
    ((hev hx hat s s' hs).strict ht never).mono (fun _ => id) fun _ _ _ => .inl

/-- Parameters are bound to matching arguments in step. -/
theorem bind_follows (ht : ¬S.tolerant) (hf : S.Known w f f')
    (ha : List.Forall₂ (S.Loosely w) args args') :
    S.Sim w never S.Bound (Policy.plain.bind f args) (Policy.plain.bind f' args') := by
  have hspecs := specs_eq hf
  refine .ret ?_
  rw [LambdaList.bind, LambdaList.bind, ← hspecs]
  exact LambdaList.bindSpecs_loose (fun h => (ht h).elim) ha

/-- Assigning is in step if changing a binding is, and defining a variable in the root frame. -/
theorem assign_follows {name : String} {v v' : Value} {i i' root : FrameId} {c : Scope}
    (hset : S.Sim w never (fun _ => Eq) (Eval.set i name v) (Eval.set i' name v'))
    (hdefine : ∀ ⦃w'⦄, w ≤ w' → S.Sim w' never (fun _ _ _ => True) (Eval.define c.root name v)
      (Eval.define root name v'))
    (hunknown : S.Sim w never (fun _ _ _ => True) (Eval.define c.root name .unknown)
      (Eval.define root name .unknown)) :
    S.Sim w never (fun _ _ _ => True) (Evaluation.assign name v i c)
      (Evaluation.assign name v' i' { c with root := root }) := by
  simp only [Evaluation.assign]
  split
  · refine hset.seq fun w' hw b b' hb => ?_
    subst hb
    cases b with
    | true => exact .ret trivial
    | false => exact hdefine hw
  · split
    · exact hdefine le_rfl
    · exact hunknown

end Plain

/-- Two evaluations in stores whose frames are alike. -/
def paired {tolerant : Prop} (C : Course tolerant) (F : Fence) (first second : Policy)
    (scope : Pairing → Scope → Scope → Prop) (refused : Fault → Prop) : Simulation where
  World := Pairing × C.State
  labels w := w.1.labels
  own w := w.1.twins
  store w s s' := s.bare.Alike tolerant w.1 s'.bare ∧ F.Keeps w.1 s.frames s'.frames ∧
    C.tables w.1 w.2 s.globals s'.globals
  scope w := scope w.1
  first := first
  second := second
  tolerant := tolerant
  refused := refused
  stray w := C.stray w.2
  stray_mono _ _ hw := C.stray_mono (And.right hw)
  stray_strict _ h := C.stray_strict h

/-- What policies and scopes have to keep, so that evaluations in stores that
are alike are in step. -/
structure Aligned (S : Simulation) : Prop where
  scope_mono : ∀ ⦃w w' c c'⦄, w ≤ w' → S.scope w c c' → S.scope w' c c'
  scope_eq : ∀ ⦃w c c'⦄, S.scope w c c' →
    c.defs = c'.defs ∧ c.expanding = c'.expanding ∧ c.loopLimit = c'.loopLimit
  scope_defs : ∀ ⦃w c c'⦄, S.scope w c c' → ∀ name d,
    c.defs.functions.get? name = some d ∨ c.defs.macros.get? name = some d →
    S.Known w d.formals d.formals ∧ S.AllKnown w d.body d.body
  binding : ∀ ⦃w c c'⦄, S.scope w c c' → ∀ names, S.scope w (c.binding names) (c'.binding names)
  expandingToo : ∀ ⦃w c c'⦄, S.scope w c c' → ∀ name,
    S.scope w (c.expandingToo name) (c'.expandingToo name)
  entering : ∀ ⦃w c c' i j⦄, S.scope w c c' → S.own w i j → ∀ name names,
    S.scope w (c.entering name i names) (c'.entering name j names)
  assign : ∀ ⦃w i j c c' v v'⦄, S.At w i j c c' → S.Loosely w v v' → ∀ name,
    S.Sim w never (fun _ _ _ => True) (S.first.assign name v i c) (S.second.assign name v' j c')
  operand : ∀ ⦃ev ev'⦄, S.Follows ev ev' →
    S.FollowsLoosely (S.first.operand ev) (S.second.operand ev')
  bind : ∀ ⦃w f f' args args'⦄, S.Known w f f' → List.Forall₂ (S.Loosely w) args args' →
    S.Sim w never S.Bound (S.first.bind f args) (S.second.bind f' args')
  home : ∀ ⦃w i j c c'⦄, Option.Rel (S.frames w) i j → S.scope w c c' →
    S.Sim w never S.frames (S.first.home i c) (S.second.home j c')

variable {tolerant : Prop} {C : Course tolerant} {F : Fence} {first second : Policy}
  {scope : Pairing → Scope → Scope → Prop} {refused : Fault → Prop} {w : Pairing × C.State}
  {i i' : FrameId} {v v' : Value}

theorem paired_define (hi : w.1.twins i i') (hv : Loose tolerant w.1.labels v v') (name : String) :
    (paired C F first second scope refused).Sim w never (fun _ _ _ => True)
      (Eval.define i name v) (Eval.define i' name v') :=
  fun _ _ hs => .agree w le_rfl
    ⟨hs.1.define hi hv name, hs.2.1.define hi name v v', hs.2.2⟩ (.ok trivial)

theorem paired_set (hi : w.1.labels.frames i i') (hv : Loose tolerant w.1.labels v v')
    (name : String) :
    (paired C F first second scope refused).Sim w never (fun _ => Eq) (Eval.set i name v)
      (Eval.set i' name v') := by
  intro s s' hs
  have hfind : Option.Rel w.1.twins (s.frames.find? name i) (s'.frames.find? name i') :=
    hs.1.find hi name
  simp only [Eval.set]
  rcases ho : s.frames.find? name i with _ | o <;>
    rcases ho' : s'.frames.find? name i' with _ | o' <;>
    rw [ho, ho'] at hfind
  · exact .agree w le_rfl hs (.ok rfl)
  · cases hfind
  · cases hfind
  · cases hfind with
    | some htwins =>
      exact .agree w le_rfl ⟨hs.1.define htwins hv name, hs.2.1.define htwins name v v', hs.2.2⟩
        (.ok rfl)

/-- Pairs of stores that are alike make a simulation. -/
theorem paired_sound (h : (paired C F first second scope refused).Aligned) :
    (paired C F first second scope refused).Sound where
  frames_mono _ _ hw := Pairing.Grows.frames hw.1
  serials_mono _ _ hw := Pairing.Grows.serials hw.1
  own_mono _ _ _ _ hw hi := Pairing.Grows.twins hw.1 hi
  own_frames _ _ _ := .inl
  scope_mono := h.scope_mono
  scope_eq := h.scope_eq
  scope_defs := h.scope_defs
  binding := h.binding
  expandingToo := h.expandingToo
  entering := h.entering
  newFrame w i j b b' hi hb s s' hs := by
    obtain ⟨w', hw, hadds, htwins, hs'⟩ := hs.1.newFrame hi hb
    exact .agree (w', w.2) ⟨hw, le_rfl⟩
      ⟨hs', hs.2.1.push hadds _ _, C.tables_mono hw hs.2.2⟩ (.ok htwins)
  define w i j v v' hi hv name := paired_define hi hv name
  lookup w i j hi name s s' hs := .agree w le_rfl hs (.ok (hs.1.lookup hi name))
  assign := h.assign
  closure w i j f f' b b' hi hf hb s s' hs := by
    obtain ⟨w', hw, hold, hserials, hs'⟩ := hs.1.newClosure
    refine .agree (w', w.2) ⟨hw, le_rfl⟩ ⟨hs', hs.2.1.grow hold, C.tables_mono hw hs.2.2⟩
      (.ok (.closure (hf.mono hw.frames hw.serials) ?_ ?_ hserials))
    · exact hb.imp fun _ _ h => h.mono hw.frames hw.serials
    · exact .some (hw.frames _ _ hi)
  operand := h.operand
  bind := h.bind
  home := h.home
  primitive w name f hf := Primitive.respects_named w.1.faithful hf
  rxForms _ _ _ hf := Rx.ofForms_agrees hf
  rxForm _ _ _ hf := Rx.ofForm_agrees hf

section SameScope

variable {G : Definitions → Nat → Prop} {c c' : Scope}

/-- Right inside of root frames that stand for each other. -/
theorem SameScopeIn.atRoot {w : Pairing} (h : SameScopeIn G w c c') (hi : w.twins i i') :
    SameScopeIn G w ⟨c.defs, i, [], [], [], c.loopLimit⟩ ⟨c'.defs, i', [], [], [], c'.loopLimit⟩ :=
  ⟨hi, by rw [h.rest], h.given⟩

/-- The innermost frames that bind the name belong together, or neither side binds it. -/
theorem paired_assign
    (hat : (paired C F first second (SameScopeIn G) refused).At w i i' c c')
    (hv : Loose tolerant w.1.labels v v') (name : String) :
    (paired C F first second (SameScopeIn G) refused).Sim w never (fun _ _ _ => True)
      (Evaluation.assign name v i c) (Evaluation.assign name v' i' c') := by
  have hscope := hat.scope
  rw [hscope.rest]
  exact assign_follows (paired_set (w := w) hat.env hv name)
    (fun w' hw => paired_define (w := w') (hw.1.twins hscope.root) (hw.1.loose hv) name)
    (paired_define (w := w) hscope.root (.inl .unknown) name)

/-- What policies have to keep in scopes in which the same may be assigned. -/
theorem sameScope_aligned (hG : ∀ defs limit, G defs limit → defs.IsPlain)
    (hh : first.home = Policy.plain.home) (hh' : second.home = Policy.plain.home)
    (hassign : ∀ (w : Pairing × C.State) i i' c c' v v',
      (paired C F first second (SameScopeIn G) refused).At w i i' c c' →
      Loose tolerant w.1.labels v v' → ∀ name,
      (paired C F first second (SameScopeIn G) refused).Sim w never (fun _ _ _ => True)
        (first.assign name v i c) (second.assign name v' i' c'))
    (hoperand : ∀ ev ev', (paired C F first second (SameScopeIn G) refused).Follows ev ev' →
      (paired C F first second (SameScopeIn G) refused).FollowsLoosely (first.operand ev)
        (second.operand ev'))
    (hbind : ∀ (w : Pairing × C.State) f f' args args', Matches w.1.labels f f' →
      List.Forall₂ (Loose tolerant w.1.labels) args args' →
      (paired C F first second (SameScopeIn G) refused).Sim w never
        (paired C F first second (SameScopeIn G) refused).Bound (first.bind f args)
        (second.bind f' args')) :
    (paired C F first second (SameScopeIn G) refused).Aligned where
  scope_mono w w' c c' hw h := ⟨hw.1.twins h.root, h.rest, h.given⟩
  scope_eq w c c' h := by rw [h.rest]; exact ⟨rfl, rfl, rfl⟩
  scope_defs w c c' h := (hG _ _ h.given).matches w.1.labels
  binding w c c' h names := ⟨h.root, by rw [h.rest]; rfl, h.given⟩
  expandingToo w c c' h name := ⟨h.root, by rw [h.rest]; rfl, h.given⟩
  entering w c c' i j h hi name names := ⟨hi, by rw [h.rest]; rfl, h.given⟩
  assign w i j c c' v v' := hassign w i j c c' v v'
  operand ev ev' := hoperand ev ev'
  bind w f f' args args' := hbind w f f' args args'
  home w i j c c' hi hs := by
    change Sim _ w never _ (first.home i c) (second.home j c')
    rw [hh, hh']
    refine .ret ?_
    cases hi with
    | none => exact .inl hs.root
    | some hi => exact hi

/-- The policy of the language, where nothing is tolerated, whatever is
answered to what is too deep. -/
theorem plain_aligned_of (fault fault' : Fault) (ht : ¬tolerant) :
    (paired C F { Policy.plain with tooDeep := fault } { Policy.plain with tooDeep := fault' }
      SameScope refused).Aligned :=
  sameScope_aligned (fun _ _ => id) rfl rfl (fun _ _ _ _ _ _ _ => paired_assign)
    (fun _ _ hev => hev.loosely ht) (fun _ _ _ _ _ hf ha => bind_follows ht hf ha)

/-- The policy of the language is aligned with itself where nothing is tolerated. -/
theorem plain_aligned (ht : ¬tolerant) : (paired C F .plain .plain SameScope refused).Aligned :=
  plain_aligned_of .tooDeep .tooDeep ht

end SameScope

/-- With the same global variables all the time, they are read in step as well. -/
theorem paired_lockstep
    (h : (paired (Course.same tolerant) F first second SameScope refused).Aligned)
    (href : ∀ f, refused f → f.handling ≠ .depth) :
    (paired (Course.same tolerant) F first second SameScope refused).Lockstep where
  toSound := paired_sound h
  refused_depth := href
  atRoot _ _ _ _ _ hc hi := hc.atRoot hi
  global w name _ _ hs := .agree w le_rfl hs (.ok (hs.2.2 name))
  putGlobal w _ _ hg name _ _ hs :=
    .agree w le_rfl ⟨hs.1, hs.2.1, hs.2.2.put hg name⟩ (.ok trivial)

end Simulation

end PatternLint
