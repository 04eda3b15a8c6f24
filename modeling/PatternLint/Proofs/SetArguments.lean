import PatternLint.Pattern.CharSet
import PatternLint.Proofs.MergedIntervals

/-! The characters that the arguments of a set name. The set made of them holds the same characters,
with its intervals apart. -/

namespace PatternLint.Rx

open Pattern (charClasses)

/-- The number is the code of a character. -/
def IsCode (n : Int) : Prop :=
  ∃ c : Char, (c.toNat : Int) = n

/-- An argument of a set names a character. -/
def Names (member : String → Char → Prop) (v : Value) (c : Char) : Prop :=
  ∃ part, argument v = .ok part ∧ (Covers part.1 c.toNat ∨ ∃ name ∈ part.2, member name c)

/-- The characters of a set, given those of the classes. -/
def CharSet.Holds (member : String → Char → Prop) (set : CharSet) (c : Char) : Prop :=
  Covers set.intervals c.toNat ∨ ∃ name ∈ set.classes, member name c

/-- A set as arguments give it. -/
structure CharSet.Proper (set : CharSet) : Prop where
  apart : Apart set.intervals
  codes : ∀ p ∈ set.intervals, IsCode p.1 ∧ IsCode p.2
  known : ∀ name ∈ set.classes, name ∈ charClasses

/-! ### Arguments -/

theorem map_eq_ok {x : Except ε α} {f : α → β} : x.map f = .ok b ↔ ∃ a, x = .ok a ∧ f a = b := by
  cases x <;> simp [Except.map]

theorem ok_of_toOption {x : Except ε α} (h : x.toOption = some a) : x = .ok a := by
  cases x <;> simp_all [Except.toOption]

theorem except_bind_eq_ok {x : Except ε α} {k : α → Except ε β} :
    x >>= k = .ok b ↔ ∃ a, x = .ok a ∧ k a = .ok b := by
  cases x <;> simp [bind, Except.bind]

theorem exists_of_mapM {f : α → Except ε β} {xs : List α} (h : xs.mapM f = .ok ys)
    {P : β → Prop} : (∃ y ∈ ys, P y) ↔ ∃ x ∈ xs, ∃ y, f x = .ok y ∧ P y := by
  induction xs generalizing ys with
  | nil => cases h; simp
  | cons x xs ih =>
    rw [List.mapM_cons, except_bind_eq_ok] at h
    obtain ⟨y, hy, h⟩ := h
    obtain ⟨more, hmore, h⟩ := except_bind_eq_ok.mp h
    cases h
    simp [hy, ih hmore]

theorem mem_of_mapM {f : α → Except ε β} {xs : List α} (h : xs.mapM f = .ok ys) (hy : y ∈ ys) :
    ∃ x ∈ xs, f x = .ok y := by
  obtain ⟨x, hx, _, hf, rfl⟩ := (exists_of_mapM h (P := (· = y))).mp ⟨y, hy, rfl⟩
  exact ⟨x, hx, hf⟩

theorem mapM_ok {f : α → Except ε β} {xs : List α} (h : ∀ x ∈ xs, ∃ y, f x = .ok y) :
    ∃ ys, xs.mapM f = .ok ys := by
  induction xs with
  | nil => exact ⟨[], rfl⟩
  | cons x xs ih =>
    obtain ⟨hx, hxs⟩ := List.forall_mem_cons.mp h
    obtain ⟨y, hy⟩ := hx
    obtain ⟨ys, hys⟩ := ih hxs
    exact ⟨y :: ys, by simp [List.mapM_cons, hy, hys, bind, Except.bind, pure, Except.pure]⟩

theorem stringIntervals_le (h : stringIntervals cs = .ok ps) : ∀ p ∈ ps, p.1 ≤ p.2 := by
  induction cs using stringIntervals.induct generalizing ps with
  | case1 => cases h; simp
  | case2 lo hi rest hlt => simp [stringIntervals, hlt] at h
  | case3 lo hi rest hle ih =>
    rw [stringIntervals, if_neg hle] at h
    obtain ⟨more, hmore, rfl⟩ := map_eq_ok.mp h
    have hcode : lo.toNat ≤ hi.toNat := Char.not_lt.mp hle
    exact List.forall_mem_cons.mpr ⟨Int.ofNat_le.mpr hcode, ih hmore⟩
  | case4 c rest hc ih =>
    rw [stringIntervals] at h
    · obtain ⟨more, hmore, rfl⟩ := map_eq_ok.mp h
      exact List.forall_mem_cons.mpr ⟨by simp, ih hmore⟩
    · exact hc

/-- The characters of a string have valid codes. -/
theorem stringIntervals_codes (h : stringIntervals cs = .ok ps) :
    ∀ p ∈ ps, IsCode p.1 ∧ IsCode p.2 := by
  induction cs using stringIntervals.induct generalizing ps with
  | case1 => cases h; simp
  | case2 lo hi rest hlt => simp [stringIntervals, hlt] at h
  | case3 lo hi rest hle ih =>
    rw [stringIntervals, if_neg hle] at h
    obtain ⟨more, hmore, rfl⟩ := map_eq_ok.mp h
    exact List.forall_mem_cons.mpr ⟨⟨⟨lo, rfl⟩, hi, rfl⟩, ih hmore⟩
  | case4 c rest hc ih =>
    rw [stringIntervals] at h
    · obtain ⟨more, hmore, rfl⟩ := map_eq_ok.mp h
      exact List.forall_mem_cons.mpr ⟨⟨⟨c, rfl⟩, c, rfl⟩, ih hmore⟩
    · exact hc

theorem argument_str_codes (h : argument (.str text) = .ok part) :
    ∀ p ∈ part.1, IsCode p.1 ∧ IsCode p.2 := by
  rw [argument] at h
  obtain ⟨ps, hps, rfl⟩ := map_eq_ok.mp h
  exact stringIntervals_codes hps

theorem argument_le (h : argument v = .ok part) : ∀ p ∈ part.1, p.1 ≤ p.2 := by
  unfold argument at h
  split at h
  · obtain ⟨ps, hps, rfl⟩ := map_eq_ok.mp h
    exact stringIntervals_le hps
  · cases h; simp
  · obtain ⟨lo, _, h⟩ := except_bind_eq_ok.mp h
    obtain ⟨hi, _, h⟩ := except_bind_eq_ok.mp h
    split at h
    · cases h
    · cases h; simpa using ‹¬ lo > hi›
  · split at h <;> cases h; simp
  · cases h

theorem className?_known (h : className? name = some c) : c ∈ charClasses := by
  have hall : ∀ p ∈ classNames, p.2 ∈ charClasses := by decide
  obtain ⟨before, after, heq, _⟩ := List.lookup_eq_some_iff.mp h
  exact hall (name, c) (heq ▸ List.mem_append_right _ List.mem_cons_self)

theorem argument_known (h : argument v = .ok part) : ∀ name ∈ part.2, name ∈ charClasses := by
  unfold argument at h
  split at h
  · obtain ⟨ps, _, rfl⟩ := map_eq_ok.mp h
    simp
  · cases h; simp
  · obtain ⟨lo, _, h⟩ := except_bind_eq_ok.mp h
    obtain ⟨hi, _, h⟩ := except_bind_eq_ok.mp h
    split at h <;> cases h
    simp
  · split at h <;> cases h
    simpa using className?_known ‹_›
  · cases h

section
variable {set : CharSet} {args : List Value} {member : String → Char → Prop}

/-- The arguments give a set by their parts. -/
theorem ofArguments_eq_ok (h : CharSet.ofArguments args = .ok set) :
    ∃ parts, args.mapM argument = .ok parts ∧ (∀ p ∈ parts.flatMap (·.1), p.1 ≤ p.2) ∧
      set = ⟨merge (parts.flatMap (·.1)), (parts.filterMap (·.2)).eraseDups⟩ := by
  obtain ⟨parts, hparts, h⟩ := except_bind_eq_ok.mp h
  cases h
  refine ⟨parts, hparts, fun p hp => ?_, rfl⟩
  obtain ⟨part, hpart, hp⟩ := List.mem_flatMap.mp hp
  obtain ⟨v, _, hv⟩ := mem_of_mapM hparts hpart
  exact argument_le hv p hp

/-- Merging neither adds nor loses a character. -/
theorem holds_ofArguments (h : CharSet.ofArguments args = .ok set) :
    set.Holds member c ↔ ∃ v ∈ args, Names member v c := by
  obtain ⟨parts, hparts, hle, rfl⟩ := ofArguments_eq_ok h
  simp only [Names, CharSet.Holds, ← exists_of_mapM hparts, covers_merge hle]
  simp only [Covers, List.mem_flatMap, List.mem_eraseDups, List.mem_filterMap, Option.mem_def]
  constructor
  · rintro (⟨p, ⟨part, hpart, hp⟩, hc⟩ | ⟨name, ⟨part, hpart, hname⟩, hc⟩)
    · exact ⟨part, hpart, .inl ⟨p, hp, hc⟩⟩
    · exact ⟨part, hpart, .inr ⟨name, hname, hc⟩⟩
  · rintro ⟨part, hpart, ⟨p, hp, hc⟩ | ⟨name, hname, hc⟩⟩
    · exact .inl ⟨p, ⟨part, hpart, hp⟩, hc⟩
    · exact .inr ⟨name, ⟨part, hpart, hname⟩, hc⟩

theorem apart_ofArguments (h : CharSet.ofArguments args = .ok set) : Apart set.intervals := by
  obtain ⟨parts, -, hle, rfl⟩ := ofArguments_eq_ok h
  exact merge_apart hle

theorem known_ofArguments (h : CharSet.ofArguments args = .ok set) :
    ∀ name ∈ set.classes, name ∈ charClasses := by
  obtain ⟨parts, hparts, -, rfl⟩ := ofArguments_eq_ok h
  intro name hname
  obtain ⟨part, hpart, hname⟩ := List.mem_filterMap.mp (List.mem_eraseDups.mp hname)
  obtain ⟨v, _, hpart⟩ := mem_of_mapM hparts hpart
  exact argument_known hpart name hname

theorem proper_ofArguments (h : CharSet.ofArguments args = .ok set)
    (hcodes : ∀ v ∈ args, ∀ part, argument v = .ok part → ∀ p ∈ part.1, IsCode p.1 ∧ IsCode p.2) :
    set.Proper := by
  refine ⟨apart_ofArguments h, ?_, known_ofArguments h⟩
  obtain ⟨parts, hparts, -, rfl⟩ := ofArguments_eq_ok h
  refine merge_ends fun p hp => ?_
  obtain ⟨part, hpart, hp⟩ := List.mem_flatMap.mp hp
  obtain ⟨v, hv, hpart⟩ := mem_of_mapM hparts hpart
  exact hcodes v hv part hpart p hp

end

end PatternLint.Rx
