import PatternLint.Proofs.WrittenPhrases

/-! Sequences inside sequences. Brackets come from the precedence of an item and from there being
other items beside it, and neither tells whether an item stands in the sequence itself or in one
inside it: a sequence that stands among the forms of another may be replaced by its own forms. -/

namespace PatternLint.Rx

variable {items before inner behind : List Item} {name : String} {greedy : Bool}

section Items

theorem present_append (xs ys : List Item) : present (xs ++ ys) = present xs ++ present ys :=
  List.filter_append xs ys

/-- Only the items that leave a trace matter. -/
theorem sequence_eq (items : List Item) :
    sequence items = match present items with
      | [] => emptyItem
      | [item] => item
      | items => ⟨items.flatMap (·.atLeast .seq), .seq⟩ :=
  rfl

theorem sequence_congr {items' : List Item} (h : present items = present items') :
    sequence items = sequence items' := by
  rw [sequence_eq, sequence_eq, h]

theorem sequence_of_none (h : present items = []) : sequence items = emptyItem := by
  rw [sequence_eq, h]

theorem sequence_of_single {item : Item} (h : present items = [item]) : sequence items = item := by
  rw [sequence_eq, h]

theorem sequence_of_many (h : 2 ≤ (present items).length) :
    sequence items = ⟨(present items).flatMap (·.atLeast .seq), .seq⟩ := by
  rw [sequence_eq]
  match present items, h with
  | _ :: _ :: _, _ => rfl

/-- Where a sequence is needed, one that is made already adds nothing to its items. -/
theorem atLeast_sequence (items : List Item) :
    (sequence items).atLeast .seq = (present items).flatMap (·.atLeast .seq) := by
  rcases hp : present items with _ | ⟨item, _ | ⟨second, rest⟩⟩
  · rw [sequence_of_none hp]
    rfl
  · rw [sequence_of_single hp, List.flatMap_singleton]
  · rw [sequence_of_many (by rw [hp, List.length_cons, List.length_cons]; omega), hp]
    rfl

theorem isEmpty_sequence (items : List Item) :
    (sequence items).isEmpty = (present items).isEmpty := by
  rcases hp : present items with _ | ⟨item, rest⟩
  · rw [sequence_of_none hp]
    rfl
  · have hitem : item.isEmpty = false := by
      have hmem : item ∈ present items := hp ▸ List.mem_cons_self
      simpa using (List.mem_filter.mp hmem).2
    cases rest with
    | nil => rw [sequence_of_single hp, hitem, List.isEmpty_cons]
    | cons second rest =>
      rw [sequence_of_many (by rw [hp, List.length_cons, List.length_cons]; omega), hp,
        List.isEmpty_cons]
      exact List.isEmpty_eq_false_iff.mpr
        (List.append_ne_nil_of_left_ne_nil (atLeast_ne_nil hitem) _)

/-- A sequence among other items comes to the same as its items in its place. -/
theorem sequence_nested (before inner behind : List Item) :
    sequence (before ++ sequence inner :: behind) = sequence (before ++ inner ++ behind) := by
  have hflat : present (before ++ inner ++ behind) =
      present before ++ present inner ++ present behind := by
    rw [present_append, present_append]
  by_cases hinner : present inner = []
  · -- the sequence is empty and vanishes, as all of its items do
    have hempty : (sequence inner).isEmpty := by rw [isEmpty_sequence, hinner]; rfl
    have hvanishes : present (sequence inner :: behind) = present behind :=
      List.filter_cons_of_neg (by simp [hempty])
    exact sequence_congr (by rw [hflat, hinner, List.append_nil, present_append, hvanishes])
  · have hsome : (sequence inner).isEmpty = false := by
      rw [isEmpty_sequence]
      exact List.isEmpty_eq_false_iff.mpr hinner
    have hnested : present (before ++ sequence inner :: behind) =
        present before ++ sequence inner :: present behind := by
      rw [present_append]
      exact congrArg _ (List.filter_cons_of_pos (by simp [hsome]))
    have hlength : 0 < (present inner).length := List.length_pos_iff.mpr hinner
    by_cases hothers : present before = [] ∧ present behind = []
    · -- nothing is beside it, and it keeps whatever precedence it has
      rw [hothers.1, hothers.2] at hnested hflat
      rw [sequence_of_single hnested]
      exact sequence_congr (by rw [hflat, List.nil_append, List.append_nil])
    · have hbeside : 0 < (present before).length + (present behind).length := by
        rw [← List.length_append]
        exact List.length_pos_iff.mpr fun h => hothers (List.append_eq_nil_iff.mp h)
      have hmany : 2 ≤ (present (before ++ sequence inner :: behind)).length := by
        rw [hnested, List.length_append, List.length_cons]
        omega
      have hmany' : 2 ≤ (present (before ++ inner ++ behind)).length := by
        rw [hflat, List.length_append, List.length_append]
        omega
      rw [sequence_of_many hmany, sequence_of_many hmany', hnested, hflat]
      simp only [List.flatMap_append, List.flatMap_cons, atLeast_sequence, List.append_assoc]

end Items

section Forms

theorem writeAll_nil : writeAll greedy [] = pure [] := by
  rw [writeAll]
  rfl

theorem writeAll_cons (form : Value) (rest : List Value) :
    writeAll greedy (form :: rest) =
      write greedy form >>= fun item => (item :: ·) <$> writeAll greedy rest := by
  rw [writeAll]
  exact bind_congr fun _ => bind_pure_comp _ _

theorem writeAll_append (greedy : Bool) (forms others : List Value) :
    writeAll greedy (forms ++ others) =
      writeAll greedy forms >>= fun items => (items ++ ·) <$> writeAll greedy others := by
  induction forms with
  | nil => simp [writeAll_nil]
  | cons form rest ih =>
    simp only [List.cons_append, writeAll_cons, ih, map_bind, bind_map_left, bind_assoc,
      Functor.map_map]

/-- A form whose operator has any of the names of a sequence. -/
theorem write_sequence (h : operators.lookup name = some .seq) (forms : List Value) :
    write greedy (.list (.sym name :: forms)) = sequence <$> writeAll greedy forms := by
  have hname : operatorName (.sym name) = pure name := rfl
  rw [write, hname, pure_bind, h]
  exact bind_pure_comp _ _

end Forms

/-- Sequences flatten: a sequence among the forms of another one can be replaced by its forms. The
regexp and its precedence stay the same, or both fail with the same fault. -/
theorem sequence_flattens (greedy : Bool) (before inner behind : List Value) :
    sequence <$> writeAll greedy (before ++ [.list (.sym "seq" :: inner)] ++ behind) =
      sequence <$> writeAll greedy (before ++ inner ++ behind) := by
  have hwrite : write greedy (.list (.sym "seq" :: inner)) = sequence <$> writeAll greedy inner :=
    write_sequence rfl inner
  have hnested (xs ys zs : List Item) : sequence (xs ++ (sequence ys :: zs)) =
      sequence (xs ++ (ys ++ zs)) := by
    rw [sequence_nested, List.append_assoc]
  simp only [List.append_assoc, List.singleton_append, writeAll_append, writeAll_cons, hwrite,
    map_bind, bind_map_left, Functor.map_map, hnested]

end PatternLint.Rx
