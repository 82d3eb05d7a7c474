/-!
# Tables in order of first mention

A table gives each key at most one value and keeps its keys in the order in which they were first
put in. Putting a known key again changes its value and not its place.
-/

namespace RepoAtlas

/-- A table of values in order of first mention of their keys, none of which is there twice. -/
structure Keyed (α : Type) where
  entries : List (String × α)
  nodup : (entries.map (·.1)).Nodup

namespace Keyed

variable {α β : Type}

/-- Two tables with the same entries are the same. -/
theorem ext_entries {t u : Keyed α} (h : t.entries = u.entries) : t = u := by
  cases t
  cases u
  subst h
  rfl

/-- The table without keys. -/
def empty : Keyed α := ⟨[], .nil⟩

instance : Inhabited (Keyed α) := ⟨empty⟩

instance [Repr α] : Repr (Keyed α) := ⟨fun t n => reprPrec t.entries n⟩

/-- The keys in order. -/
def keys (t : Keyed α) : List String :=
  t.entries.map (·.1)

/-- The values in the order of their keys. -/
def values (t : Keyed α) : List α :=
  t.entries.map (·.2)

/-- The number of keys. -/
def size (t : Keyed α) : Nat :=
  t.entries.length

/-- The value of a key. -/
def get? (t : Keyed α) (k : String) : Option α :=
  t.entries.lookup k

/-- Whether a key has a value. -/
def has (t : Keyed α) (k : String) : Bool :=
  (t.get? k).isSome

/-- The entries after a key is given a value. -/
def put (k : String) (a : α) : List (String × α) → List (String × α)
  | [] => [(k, a)]
  | (j, b) :: rest => if j = k then (j, a) :: rest else (j, b) :: put k a rest

/-- Putting a key that is there changes no key, and a new key comes last. -/
theorem map_fst_put (k : String) (a : α) (es : List (String × α)) :
    (put k a es).map (·.1) =
      if k ∈ es.map (·.1) then es.map (·.1) else es.map (·.1) ++ [k] := by
  induction es with
  | nil => simp [put]
  | cons e rest ih =>
    obtain ⟨j, b⟩ := e
    by_cases hjk : j = k
    · simp [put, hjk]
    · have hkj : ¬k = j := fun h => hjk h.symm
      by_cases hk : k ∈ rest.map (·.1)
      · simp only [put, hjk, if_false, List.map_cons, ih, List.mem_cons, hkj, hk, or_true, if_true]
      · simp only [put, hjk, if_false, List.map_cons, ih, List.mem_cons, hkj, hk, or_self,
          List.cons_append]

/-- What stands in a table after a key is put was there before or is what was put. -/
theorem mem_put {k : String} {es : List (String × α)} {e : String × α} {x : α}
    (h : e ∈ put k x es) : e = (k, x) ∨ e ∈ es := by
  induction es with
  | nil => exact Or.inl (List.mem_singleton.mp h)
  | cons f es ih =>
    obtain ⟨j, y⟩ := f
    by_cases hjk : j = k
    · subst hjk
      simp only [put, if_true, List.mem_cons] at h
      exact h.imp_right (List.mem_cons_of_mem _)
    · simp only [put, hjk, if_false, List.mem_cons] at h
      rcases h with rfl | h
      · exact Or.inr List.mem_cons_self
      · exact (ih h).imp_right (List.mem_cons_of_mem _)

/-- Putting a key leaves no key there twice. -/
theorem nodup_put (k : String) (a : α) {es : List (String × α)} (h : (es.map (·.1)).Nodup) :
    ((put k a es).map (·.1)).Nodup := by
  rw [map_fst_put]
  split
  · exact h
  · rename_i hk
    refine List.nodup_append.mpr ⟨h, List.nodup_cons.mpr ⟨List.not_mem_nil, .nil⟩, ?_⟩
    intro x hx y hy hxy
    rw [List.mem_singleton.mp hy] at hxy
    exact hk (hxy ▸ hx)

/-- Give a key a value. -/
def insert (t : Keyed α) (k : String) (a : α) : Keyed α :=
  ⟨put k a t.entries, nodup_put k a t.nodup⟩

/-- Change the value of a key that has one. -/
def modify (t : Keyed α) (k : String) (f : α → α) : Keyed α :=
  ⟨t.entries.map fun (j, a) => (j, if j = k then f a else a),
    by simpa only [List.map_map, Function.comp_def] using t.nodup⟩

/-- Change every value. -/
def map (t : Keyed α) (f : String → α → β) : Keyed β :=
  ⟨t.entries.map fun (j, a) => (j, f j a),
    by simpa only [List.map_map, Function.comp_def] using t.nodup⟩

/-- Remove a key. -/
def erase (t : Keyed α) (k : String) : Keyed α :=
  ⟨t.entries.filter fun (j, _) => j ≠ k, (List.filter_sublist.map _).nodup t.nodup⟩

/-- The table of a list of entries; of entries with one key the last value counts. -/
def ofList (xs : List (String × α)) : Keyed α :=
  xs.foldl (fun t (k, a) => t.insert k a) empty

/-- What is put under a key is found there. -/
theorem lookup_put_self (k : String) (a : α) (es : List (String × α)) :
    (put k a es).lookup k = some a := by
  induction es with
  | nil => simp [put]
  | cons e rest ih =>
    obtain ⟨j, b⟩ := e
    by_cases h : j = k
    · simp [put, h]
    · have h' : (k == j) = false := by simpa using fun e : k = j => h e.symm
      simp [put, h, List.lookup_cons, h', ih]

/-- Other keys are not touched. -/
theorem lookup_put_of_ne {j k : String} (a : α) (es : List (String × α)) (h : j ≠ k) :
    (put k a es).lookup j = es.lookup j := by
  have hjk : (j == k) = false := by simpa using h
  induction es with
  | nil => simp [put, List.lookup_cons, hjk]
  | cons e rest ih =>
    obtain ⟨i, b⟩ := e
    by_cases hi : i = k
    · subst hi
      simp [put, List.lookup_cons, hjk]
    · by_cases hj : j = i
      · subst hj
        simp [put, hi]
      · have : (j == i) = false := by simpa using hj
        simp [put, hi, List.lookup_cons, this, ih]

/-- What is inserted under a key is found there. -/
@[simp] theorem get?_insert_self (t : Keyed α) (k : String) (a : α) :
    (t.insert k a).get? k = some a :=
  lookup_put_self k a t.entries

/-- Inserting leaves the other keys as they are. -/
theorem get?_insert_of_ne (t : Keyed α) {j k : String} (a : α) (h : j ≠ k) :
    (t.insert k a).get? j = t.get? j :=
  lookup_put_of_ne a t.entries h

/-- What a list finds under a key stands in it. -/
theorem mem_of_lookup {κ : Type} [BEq κ] [LawfulBEq κ] {l : List (κ × α)} {x : κ} {y : α}
    (h : l.lookup x = some y) : (x, y) ∈ l := by
  obtain ⟨l₁, l₂, rfl, -⟩ := List.lookup_eq_some_iff.mp h
  exact List.mem_append_right l₁ List.mem_cons_self

/-- What stands in a list under a key makes the list find something. -/
theorem lookup_ne_none_of_mem {κ : Type} [BEq κ] [LawfulBEq κ] {l : List (κ × α)} {x : κ} {y : α}
    (h : (x, y) ∈ l) : l.lookup x ≠ none := by
  intro hnone
  have hne := List.lookup_eq_none_iff.mp hnone (x, y) h
  exact absurd rfl (bne_iff_ne.mp hne)

/-- Where no key stands twice, the value of a key is the one that stands with it. -/
theorem lookup_eq_some_iff {es : List (String × α)} (hnodup : (es.map (·.1)).Nodup) {k : String}
    {a : α} : es.lookup k = some a ↔ (k, a) ∈ es := by
  induction es with
  | nil => simp
  | cons e rest ih =>
    obtain ⟨j, b⟩ := e
    simp only [List.map_cons, List.nodup_cons] at hnodup
    by_cases hkj : k = j
    · subst hkj
      have hrest : (k, a) ∉ rest := fun h => hnodup.1 (List.mem_map_of_mem (f := (·.1)) h)
      simp [hrest, eq_comm]
    · have hbeq : (k == j) = false := by simpa using hkj
      simp [List.lookup_cons, hbeq, ih hnodup.2, hkj]

/-- The value of a key is the one that stands with it. -/
theorem get?_eq_some_iff (t : Keyed α) {k : String} {a : α} :
    t.get? k = some a ↔ (k, a) ∈ t.entries :=
  lookup_eq_some_iff t.nodup

/-- What stands with a value is a key. -/
theorem mem_keys_of_mem {t : Keyed α} {k : String} {a : α} (h : (k, a) ∈ t.entries) : k ∈ t.keys :=
  List.mem_map.mpr ⟨(k, a), h, rfl⟩

/-- What stands with a key is a value. -/
theorem mem_values_of_mem {t : Keyed α} {k : String} {a : α} (h : (k, a) ∈ t.entries) :
    a ∈ t.values :=
  List.mem_map.mpr ⟨(k, a), h, rfl⟩

/-- A key has a value exactly if it is one of the keys. -/
theorem has_iff_mem_keys (t : Keyed α) (k : String) : t.has k = true ↔ k ∈ t.keys := by
  simp only [has, keys, Option.isSome_iff_exists, get?_eq_some_iff, List.mem_map, Prod.exists,
    exists_and_right, exists_eq_right]

/-- Changing a value keeps the keys. -/
@[simp] theorem keys_modify (t : Keyed α) (k : String) (f : α → α) :
    (t.modify k f).keys = t.keys := by
  simp only [keys, modify, List.map_map, Function.comp_def]

/-- Changing all values keeps the keys. -/
@[simp] theorem keys_map (t : Keyed α) (f : String → α → β) : (t.map f).keys = t.keys := by
  simp only [keys, map, List.map_map, Function.comp_def]

/-- Changing every value changes what is found under a key. -/
theorem get?_map (t : Keyed α) (f : String → α → β) (j : String) :
    (t.map f).get? j = (t.get? j).map (f j) := by
  obtain ⟨es, hnodup⟩ := t
  show (es.map _).lookup j = (es.lookup j).map _
  induction es with
  | nil => rfl
  | cons e rest ih =>
    obtain ⟨i, b⟩ := e
    by_cases hji : j = i
    · subst hji
      simp
    · have hbeq : (j == i) = false := by simpa using hji
      simp only [List.map_cons, List.lookup_cons, hbeq]
      exact ih (List.nodup_cons.mp hnodup).2

/-- Changing the value of a key changes what is found under that key and nothing else. -/
theorem get?_modify (t : Keyed α) (k j : String) (f : α → α) :
    (t.modify k f).get? j = (t.get? j).map fun a => if j = k then f a else a :=
  get?_map t (fun i a => if i = k then f a else a) j

end Keyed

end RepoAtlas
