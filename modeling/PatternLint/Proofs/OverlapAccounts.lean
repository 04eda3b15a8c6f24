import Mathlib.Data.List.Nodup
import PatternLint.Proofs.SetIssues

/-! Complaints about items of a set that meet earlier ones. The search for an earlier
item stops at the first that is met; each item that meets one gets its complaint all the
same, and a single one. -/

namespace PatternLint.Pattern

/-- Some character is in both spans. -/
def Span.Overlaps (a b : Span) : Prop :=
  ∃ c, a.lo ≤ c ∧ c ≤ a.hi ∧ b.lo ≤ c ∧ c ≤ b.hi

/-- The issue is about two items, and not about a range on its own. -/
def SetIssue.isOverlap : SetIssue → Bool
  | .reversed _ => false
  | _ => true

/-- A character, or a range that is not reversed. -/
def Regexp.Element.item? : Regexp.Element → Option Span
  | .span s => if s.hi < s.lo then none else some s
  | .named _ => none

/-- The characters and ranges of a set with their places; classes and
reversed ranges are left out. -/
def itemsOf (es : List (Nat × Regexp.Element)) : List (Nat × Span) :=
  es.filterMap fun (pos, e) => e.item?.map (pos, ·)

/-- The complaints about items that meet earlier ones: one for each such item, at its place, and no
others. -/
structure Accounts (found : List (Nat × SetIssue)) (items : List (Nat × Span)) : Prop where
  once : ∀ before pos s after, items = before ++ (pos, s) :: after →
    (∃ t ∈ before, s.Overlaps t.2) → found.countP (fun i => i.1 = pos) = 1
  never : ∀ before pos s after, items = before ++ (pos, s) :: after →
    (¬ ∃ t ∈ before, s.Overlaps t.2) → found.countP (fun i => i.1 = pos) = 0
  cause : ∀ i ∈ found, ∃ before s after t, items = before ++ (i.1, s) :: after ∧ t ∈ before ∧
    s.Overlaps t.2 ∧ i.2 = clash t.2 s
  none_iff : found = [] ↔ items.Pairwise fun a b => ¬ b.2.Overlaps a.2

variable {seen : Array Span} {s t : Span} {issue : SetIssue}
  {items before after : List (Nat × Span)}
  {found found' : List (Nat × SetIssue)} {es : List (Nat × Regexp.Element)} {pos : Nat}

theorem Span.meets_iff_overlaps (hs : s.lo ≤ s.hi) (ht : t.lo ≤ t.hi) :
    s.meets t = true ↔ s.Overlaps t :=
  Span.meets_iff hs ht

/-! ### One item after the other -/

/-- The complaints about items, given the spans before them. -/
def clashesFrom (seen : Array Span) : List (Nat × Span) → List (Nat × SetIssue)
  | [] => []
  | (pos, s) :: rest => (clash? seen s).toList.map (pos, ·) ++ clashesFrom (seen.push s) rest

theorem clash?_eq_some (h : clash? seen s = some issue) :
    ∃ t ∈ seen, s.meets t = true ∧ issue = clash t s := by
  obtain ⟨t, ht, rfl⟩ := Option.map_eq_some_iff.mp h
  exact ⟨t, Array.mem_of_find?_eq_some ht, Array.find?_some ht, rfl⟩

theorem clash?_eq_none_iff : clash? seen s = none ↔ ∀ t ∈ seen, s.meets t = false := by
  simp [clash?]

theorem mem_clashesFrom {i : Nat × SetIssue} : i ∈ clashesFrom seen items ↔
    ∃ before s after, items = before ++ (i.1, s) :: after ∧
      clash? (seen ++ (before.map Prod.snd).toArray) s = some i.2 := by
  induction items generalizing seen with
  | nil => simp [clashesFrom]
  | cons item items ih =>
    obtain ⟨pos, s⟩ := item
    have hpush (before : List (Nat × Span)) :
        seen.push s ++ (before.map Prod.snd).toArray
          = seen ++ (((pos, s) :: before).map Prod.snd).toArray := by
      simp
    simp only [clashesFrom, List.mem_append, ih, hpush]
    constructor
    · rintro (hi | ⟨before, s', after, rfl, hclash⟩)
      · obtain ⟨issue, hissue, rfl⟩ := List.mem_map.mp hi
        exact ⟨[], s, items, rfl, by simpa using hissue⟩
      · exact ⟨(pos, s) :: before, s', after, rfl, hclash⟩
    · rintro ⟨before, s', after, hitems, hclash⟩
      cases before with
      | nil =>
        obtain ⟨hitem, rfl⟩ := List.cons.inj hitems
        obtain ⟨rfl, rfl⟩ := Prod.mk.inj hitem
        exact .inl (List.mem_map.mpr ⟨i.2, by simpa using hclash, rfl⟩)
      | cons item before =>
        obtain ⟨rfl, rfl⟩ := List.cons.inj hitems
        exact .inr ⟨before, s', after, rfl, hclash⟩

theorem places_clashesFrom (seen : Array Span) (items : List (Nat × Span)) :
    ((clashesFrom seen items).map Prod.fst).Sublist (items.map Prod.fst) := by
  induction items generalizing seen with
  | nil => exact .slnil
  | cons item items ih =>
    obtain ⟨pos, s⟩ := item
    rw [clashesFrom]
    cases clash? seen s with
    | none => exact (ih _).cons pos
    | some issue => exact (ih _).cons_cons pos

/-! ### The account -/

/-- No two items stand at one place, and no range is reversed. -/
structure Placed (items : List (Nat × Span)) : Prop where
  places : items.Pairwise fun a b => a.1 < b.1
  le : ∀ i ∈ items, i.2.lo ≤ i.2.hi

theorem Placed.nodup (h : Placed items) : (items.map Prod.fst).Nodup :=
  List.pairwise_map.mpr (h.places.imp Nat.ne_of_lt)

/-- An item is where it stands only. -/
theorem Placed.split_unique {before' after' : List (Nat × Span)} (h : Placed items)
    (hitems : items = before ++ (pos, s) :: after)
    (hitems' : items = before' ++ (pos, t) :: after') : before = before' ∧ s = t := by
  have hnodup := h.nodup
  rw [hitems] at hnodup hitems'
  rw [List.append_eq_append_iff] at hitems'
  obtain ⟨more, rfl, hmore⟩ | ⟨more, rfl, hmore⟩ := hitems'
  · cases more with
    | nil =>
      obtain ⟨hitem, -⟩ := List.cons.inj hmore
      exact ⟨by simp, (Prod.mk.inj hitem).2⟩
    | cons item more =>
      obtain ⟨rfl, rfl⟩ := List.cons.inj hmore
      simp [List.nodup_append] at hnodup
  · cases more with
    | nil =>
      obtain ⟨hitem, -⟩ := List.cons.inj hmore
      exact ⟨by simp, (Prod.mk.inj hitem).2.symm⟩
    | cons item more =>
      obtain ⟨rfl, rfl⟩ := List.cons.inj hmore
      simp [List.nodup_append] at hnodup

theorem Placed.meets_iff (h : Placed items) (hitems : items = before ++ (pos, s) :: after)
    {t : Nat × Span} (ht : t ∈ before) : s.meets t.2 = true ↔ s.Overlaps t.2 := by
  subst hitems
  exact Span.meets_iff_overlaps (h.le (pos, s) (by simp)) (h.le t (by simp [ht]))

theorem Placed.clashes_cause (h : Placed items) {i : Nat × SetIssue}
    (hi : i ∈ clashesFrom #[] items) :
    ∃ before s after t, items = before ++ (i.1, s) :: after ∧ t ∈ before ∧ s.Overlaps t.2 ∧
      i.2 = clash t.2 s := by
  obtain ⟨before, s, after, hitems, hclash⟩ := mem_clashesFrom.mp hi
  obtain ⟨t, ht, hmeets, hissue⟩ := clash?_eq_some hclash
  obtain ⟨place, hmem⟩ : ∃ place, (place, t) ∈ before := by simpa using ht
  exact ⟨before, s, after, (place, t), hitems, hmem, (h.meets_iff hitems hmem).mp hmeets, hissue⟩

theorem Placed.mem_places_iff (h : Placed items) (hitems : items = before ++ (pos, s) :: after) :
    pos ∈ (clashesFrom #[] items).map Prod.fst ↔ ∃ t ∈ before, s.Overlaps t.2 := by
  constructor
  · intro hpos
    obtain ⟨i, hi, rfl⟩ := List.mem_map.mp hpos
    obtain ⟨before', s', after', t, hitems', ht, hoverlap, -⟩ := h.clashes_cause hi
    obtain ⟨rfl, rfl⟩ := h.split_unique hitems hitems'
    exact ⟨t, ht, hoverlap⟩
  · rintro ⟨t, ht, hoverlap⟩
    have hsome : clash? (#[] ++ (before.map Prod.snd).toArray) s ≠ none := fun hnone => by
      have hnot := clash?_eq_none_iff.mp hnone t.2 (by simpa using ⟨t.1, ht⟩)
      exact absurd ((h.meets_iff hitems ht).mpr hoverlap) (by simp [hnot])
    obtain ⟨issue, hissue⟩ := Option.ne_none_iff_exists'.mp hsome
    exact List.mem_map.mpr ⟨(pos, issue), mem_clashesFrom.mpr ⟨before, s, after, hitems, hissue⟩,
      rfl⟩

theorem Placed.countP_eq (h : Placed items) (pos : Nat) :
    (clashesFrom #[] items).countP (fun i => i.1 = pos)
      = if pos ∈ (clashesFrom #[] items).map Prod.fst then 1 else 0 := by
  have hnodup := (places_clashesFrom #[] items).nodup h.nodup
  rw [← hnodup.count, List.count, List.countP_map]
  exact List.countP_congr fun i _ => by simp

/-- Items without an overlap give no complaint, and the other way round. -/
theorem Placed.clashes_eq_nil_iff (h : Placed items) :
    clashesFrom #[] items = [] ↔ items.Pairwise fun a b => ¬ b.2.Overlaps a.2 := by
  rw [List.pairwise_iff_forall_sublist, List.eq_nil_iff_forall_not_mem]
  constructor
  · intro hnone a b hsub hoverlap
    obtain ⟨before, rest, rfl, ha, hb⟩ := List.cons_sublist_iff.mp hsub
    obtain ⟨middle, after, rfl⟩ := List.append_of_mem (List.singleton_sublist.mp hb)
    have hitems : before ++ (middle ++ b :: after) = (before ++ middle) ++ (b.1, b.2) :: after := by
      simp
    obtain ⟨i, hi, -⟩ := List.mem_map.mp
      ((h.mem_places_iff hitems).mpr ⟨a, List.mem_append_left _ ha, hoverlap⟩)
    exact hnone i hi
  · intro hall i hi
    obtain ⟨before, s, after, t, rfl, ht, hoverlap, -⟩ := h.clashes_cause hi
    have hsub : [t, (i.1, s)].Sublist (before ++ (i.1, s) :: after) :=
      (List.singleton_sublist.mpr ht).append (List.singleton_sublist.mpr List.mem_cons_self)
    exact hall hsub hoverlap

theorem Placed.accounts (h : Placed items) : Accounts (clashesFrom #[] items) items where
  once before pos s after hitems hoverlap := by
    rw [h.countP_eq, if_pos ((h.mem_places_iff hitems).mpr hoverlap)]
  never before pos s after hitems hoverlap := by
    rw [h.countP_eq, if_neg (hoverlap ∘ (h.mem_places_iff hitems).mp)]
  cause _ hi := h.clashes_cause hi
  none_iff := h.clashes_eq_nil_iff

/-- The order of the complaints does not matter. -/
theorem Accounts.perm (h : Accounts found items) (hperm : found.Perm found') :
    Accounts found' items where
  once before pos s after hitems hoverlap :=
    hperm.countP_eq _ ▸ h.once before pos s after hitems hoverlap
  never before pos s after hitems hoverlap :=
    hperm.countP_eq _ ▸ h.never before pos s after hitems hoverlap
  cause i hi := h.cause i (hperm.mem_iff.mpr hi)
  none_iff := by rw [← h.none_iff, ← List.length_eq_zero_iff, ← hperm.length_eq,
    List.length_eq_zero_iff]

/-! ### Elements of every kind -/

/-- The issues about the elements of a set, given the spans before them. -/
def issuesFrom (seen : Array Span) : List (Nat × Regexp.Element) → List (Nat × SetIssue)
  | [] => []
  | (pos, e) :: rest => (e.issue? seen).toList.map (pos, ·) ++ issuesFrom (e.onto seen) rest

theorem clash?_isOverlap (h : clash? seen s = some issue) : issue.isOverlap = true := by
  obtain ⟨t, -, -, rfl⟩ := clash?_eq_some h
  unfold clash
  split <;> split <;> rfl

theorem reversed?_isOverlap (h : reversed? s = some issue) : issue.isOverlap = false := by
  unfold reversed? at h
  split at h
  · cases h
  · cases h
    rfl

/-- Of the issues, the complaints about overlaps are those about the items. -/
theorem overlaps_issuesFrom (seen : Array Span) (es : List (Nat × Regexp.Element)) :
    (issuesFrom seen es).filter (fun i => i.2.isOverlap) = clashesFrom seen (itemsOf es) := by
  induction es generalizing seen with
  | nil => rfl
  | cons placed es ih =>
    obtain ⟨pos, e⟩ := placed
    rw [issuesFrom, List.filter_append, ih]
    cases e with
    | named name => rfl
    | span s =>
      simp only [Regexp.Element.issue?, Regexp.Element.onto]
      by_cases hrev : s.hi < s.lo
      · have hitems : itemsOf ((pos, .span s) :: es) = itemsOf es := by
          simp [itemsOf, Regexp.Element.item?, hrev]
        rw [if_pos hrev, if_pos hrev, hitems]
        cases hissue : reversed? s with
        | none => rfl
        | some issue => simp [reversed?_isOverlap hissue]
      · have hitems : itemsOf ((pos, .span s) :: es) = (pos, s) :: itemsOf es := by
          simp [itemsOf, Regexp.Element.item?, hrev]
        rw [if_neg hrev, if_neg hrev, hitems, clashesFrom]
        cases hissue : clash? seen s with
        | none => rfl
        | some issue => simp [clash?_isOverlap hissue]

theorem item?_le {e : Regexp.Element} (h : e.item? = some s) : s.lo ≤ s.hi := by
  unfold Regexp.Element.item? at h
  split at h
  · split at h
    · cases h
    · rename_i hrev
      cases h
      exact Char.not_lt.mp hrev
  · cases h

/-- Elements that are read one behind the other from a place on. -/
structure Ascends (pos : Nat) (es : List (Nat × Regexp.Element)) : Prop where
  start : ∀ e ∈ es, pos ≤ e.1
  places : es.Pairwise fun a b => a.1 < b.1

theorem Ascends.nil : Ascends pos [] :=
  ⟨nofun, .nil⟩

theorem Ascends.cons {n : Nat} (h : Ascends (pos + 1 + n) es) (e : Regexp.Element) :
    Ascends pos ((pos, e) :: es) := by
  have hlater : ∀ a ∈ es, pos < a.1 := fun a ha => by
    have := h.start a ha
    omega
  exact ⟨List.forall_mem_cons.mpr ⟨Nat.le_refl _, fun a ha => Nat.le_of_lt (hlater a ha)⟩,
    List.pairwise_cons.mpr ⟨hlater, h.places⟩⟩

theorem Ascends.placed (h : Ascends pos es) : Placed (itemsOf es) where
  places := by
    refine List.Pairwise.filterMap _ (fun a b hlt a' ha b' hb => ?_) h.places
    obtain ⟨s, -, rfl⟩ := Option.map_eq_some_iff.mp ha
    obtain ⟨t, -, rfl⟩ := Option.map_eq_some_iff.mp hb
    exact hlt
  le i hi := by
    obtain ⟨e, -, he⟩ := List.mem_filterMap.mp hi
    obtain ⟨s, hs, rfl⟩ := Option.map_eq_some_iff.mp he
    exact item?_le hs

/-- The linters put their issues in order after they have found them. -/
theorem Ascends.accounts (h : Ascends pos es)
    (hperm : found.Perm ((issuesFrom #[] es).filter fun i => i.2.isOverlap)) :
    Accounts found (itemsOf es) := by
  rw [overlaps_issuesFrom] at hperm
  exact h.placed.accounts.perm hperm.symm

end PatternLint.Pattern
