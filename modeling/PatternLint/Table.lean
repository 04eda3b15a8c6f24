/-! Tables from names to what they stand for, in the order in which the names first came up. -/

namespace PatternLint

theorem mem_of_lookup {κ α : Type} [BEq κ] [LawfulBEq κ] {entries : List (κ × α)} {k : κ} {a : α}
    (h : entries.lookup k = some a) : (k, a) ∈ entries := by
  induction entries with
  | nil => cases h
  | cons entry rest ih =>
    rw [List.lookup_cons] at h
    split at h
    · rename_i heq
      cases h
      rw [eq_of_beq heq]
      exact List.mem_cons_self
    · exact List.mem_cons_of_mem _ (ih h)

structure Table (α : Type) where
  entries : List (String × α)

namespace Table

variable {α : Type} {t : Table α} {k name : String} {a : α}

def empty : Table α :=
  ⟨[]⟩

instance : Inhabited (Table α) := ⟨empty⟩

def get? (t : Table α) (name : String) : Option α :=
  t.entries.lookup name

def contains (t : Table α) (name : String) : Bool :=
  (t.get? name).isSome

def names (t : Table α) : List String :=
  t.entries.map (·.1)

def putEntry (name : String) (a : α) : List (String × α) → List (String × α)
  | [] => [(name, a)]
  | (k, b) :: rest => if k == name then (k, a) :: rest else (k, b) :: putEntry name a rest

/-- A new name comes last; a known one keeps its place. -/
def put (t : Table α) (name : String) (a : α) : Table α :=
  ⟨putEntry name a t.entries⟩

def ofList (bindings : List (String × α)) : Table α :=
  bindings.foldl (fun t (name, a) => t.put name a) empty

theorem mem_of_get? (h : t.get? name = some a) : (name, a) ∈ t.entries :=
  mem_of_lookup h

theorem mem_names_of_get? (h : t.get? name = some a) : name ∈ t.names :=
  List.mem_map.2 ⟨(name, a), mem_of_get? h, rfl⟩

@[simp] theorem get?_empty : (empty : Table α).get? name = none := rfl

theorem lookup_putEntry (entries : List (String × α)) :
    (putEntry name a entries).lookup k = if k = name then some a else entries.lookup k := by
  induction entries with
  | nil => by_cases h : k = name <;> simp [putEntry, List.lookup_cons, h, beq_false_of_ne]
  | cons e rest ih =>
    obtain ⟨j, b⟩ := e
    by_cases hj : j = name <;> by_cases hk : k = j <;>
      simp_all [putEntry, List.lookup_cons, beq_false_of_ne]

theorem get?_put (t : Table α) (name k : String) (a : α) :
    (t.put name a).get? k = if k = name then some a else t.get? k :=
  lookup_putEntry t.entries

@[simp] theorem get?_put_self (t : Table α) (name : String) (a : α) :
    (t.put name a).get? name = some a := by
  simp [get?_put]

theorem get?_put_of_ne (h : k ≠ name) : (t.put name a).get? k = t.get? k := by
  simp [get?_put, h]

theorem get?_foldl_put_eq (bindings : List (String × α)) (t : Table α) (k : String) :
    (bindings.foldl (fun t (name, a) => t.put name a) t).get? k =
      (bindings.reverse.lookup k).or (t.get? k) := by
  induction bindings generalizing t with
  | nil => rfl
  | cons b rest ih =>
    obtain ⟨name, a⟩ := b
    rw [List.foldl_cons, ih, get?_put, List.reverse_cons, List.lookup_append, Option.or_assoc]
    by_cases h : k = name <;> simp [List.lookup_cons, h, beq_false_of_ne]

/-- The names of a table are those that it had and those that were put into it. -/
theorem contains_foldl_put (bindings : List (String × α)) (t : Table α) (k : String) :
    (bindings.foldl (fun t (name, a) => t.put name a) t).contains k = true ↔
      k ∈ bindings.map (·.1) ∨ t.contains k = true := by
  rw [contains, get?_foldl_put_eq, Option.isSome_or, Bool.or_eq_true, List.lookup_isSome_iff]
  simp [contains]

/-- Of several bindings of a name, the last one counts. -/
theorem get?_ofList_eq (bindings : List (String × α)) (k : String) :
    (ofList bindings).get? k = bindings.reverse.lookup k := by
  rw [ofList, get?_foldl_put_eq, get?_empty, Option.or_none]

/-- A table has nothing but what it was made from. -/
theorem mem_of_get?_ofList {bindings : List (String × α)} (h : (ofList bindings).get? k = some a) :
    (k, a) ∈ bindings :=
  List.mem_reverse.1 (mem_of_lookup (get?_ofList_eq bindings k ▸ h))

/-- A table has the names that it was made from. -/
theorem contains_ofList (bindings : List (String × α)) (k : String) :
    (ofList bindings).contains k = true ↔ k ∈ bindings.map (·.1) :=
  (contains_foldl_put bindings empty k).trans (or_iff_left nofun)

theorem get?_ofList_append_cons {before after : List (String × α)}
    (h : k ∉ after.map (·.1)) (a : α) : (ofList (before ++ (k, a) :: after)).get? k = some a := by
  have hnone : after.reverse.lookup k = none := by
    refine List.lookup_eq_none_iff.2 fun b hb => bne_iff_ne.2 fun hk => h ?_
    exact List.mem_map.2 ⟨b, List.mem_reverse.1 hb, hk.symm⟩
  rw [get?_ofList_eq, List.reverse_append, List.reverse_cons, List.append_assoc, List.lookup_append,
    hnone, Option.none_or, List.singleton_append, List.lookup_cons_self]

theorem map_fst_putEntry (entries : List (String × α)) (h : name ∈ entries.map (·.1)) :
    (putEntry name a entries).map (·.1) = entries.map (·.1) := by
  induction entries with
  | nil => simp at h
  | cons e rest ih =>
    obtain ⟨j, b⟩ := e
    by_cases hj : j = name
    · simp [putEntry, hj]
    · simp [putEntry, hj, ih (by simpa [Ne.symm hj] using h)]

theorem names_put_of_mem (h : name ∈ t.names) : (t.put name a).names = t.names :=
  map_fst_putEntry t.entries h

end Table

end PatternLint
