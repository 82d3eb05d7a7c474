import Mathlib.Data.List.Basic
import RepoAtlas.Keyed

/-!
# Tables filled in turn

A table that is filled from a list of entries gives a key the last value it is listed with, at the place where
the key is listed first. Looking at some of the keys can be done before or after filling.
-/

namespace RepoAtlas.Keyed

variable {α : Type} {t : Keyed α} {es : List (String × α)} {k : String} {a : α}

/-- Give keys values one after the other. -/
def insertAll (t : Keyed α) (es : List (String × α)) : Keyed α :=
  es.foldl (fun t e => t.insert e.1 e.2) t

/-- A table of entries is made by inserting them one by one. -/
theorem ofList_eq_insertAll (es : List (String × α)) : ofList es = empty.insertAll es :=
  rfl

/-- Entries of two lists are inserted one list after the other. -/
theorem insertAll_append (t : Keyed α) (es fs : List (String × α)) :
    t.insertAll (es ++ fs) = (t.insertAll es).insertAll fs :=
  List.foldl_append

/-- After inserting, a key has the new value if it is the one inserted. -/
theorem get?_insert (t : Keyed α) (j k : String) (a : α) :
    (t.insert k a).get? j = if j = k then some a else t.get? j := by
  split
  · subst j
    exact t.get?_insert_self k a
  · rename_i hjk
    exact t.get?_insert_of_ne a hjk

/-- A key has the last value that it is listed with, or else the value it had. -/
theorem get?_insertAll (t : Keyed α) (es : List (String × α)) (k : String) :
    (t.insertAll es).get? k = (es.reverse.lookup k).or (t.get? k) := by
  induction es generalizing t with
  | nil => rfl
  | cons e es ih =>
    obtain ⟨j, b⟩ := e
    change ((t.insert j b).insertAll es).get? k = _
    rw [ih, get?_insert, List.reverse_cons, List.lookup_append, Option.or_assoc]
    congr 1
    by_cases hk : k = j
    · simp [hk]
    · have hbeq : (k == j) = false := by simpa using hk
      simp [List.lookup_cons, hk, hbeq]

/-- Looking a name up among entries that go by several names is asking for the last that goes by it. -/
theorem lookup_reverse_flatMap {ε β κ : Type} [BEq κ] [LawfulBEq κ] (names : ε → List κ) (value : ε → β)
    (n : κ) (es : List ε) :
    (es.flatMap fun e => (names e).map (·, value e)).reverse.lookup n =
      (es.reverse.find? fun e => decide (n ∈ names e)).map value := by
  have hone : ∀ e, ((names e).map (·, value e)).reverse.lookup n =
      if n ∈ names e then some (value e) else none := by
    intro e
    split
    · rename_i hn
      have hmem : (n, value e) ∈ ((names e).map (·, value e)).reverse := by simpa using hn
      obtain ⟨b, hb⟩ := Option.ne_none_iff_exists'.mp (lookup_ne_none_of_mem hmem)
      obtain ⟨m, -, heq⟩ := List.mem_map.mp (List.mem_reverse.mp (mem_of_lookup hb))
      rw [hb, ← (Prod.mk.inj heq).2]
    · rename_i hn
      rw [List.lookup_eq_none_iff]
      rintro ⟨m, b⟩ hmem
      obtain ⟨m', hm', heq⟩ := List.mem_map.mp (List.mem_reverse.mp hmem)
      obtain ⟨rfl, -⟩ := Prod.mk.inj heq
      exact bne_iff_ne.mpr fun heq => hn (heq ▸ hm')
  induction es with
  | nil => rfl
  | cons e es ih =>
    rw [List.flatMap_cons, List.reverse_append, List.lookup_append, ih, hone, List.reverse_cons,
      List.find?_append, Option.map_or]
    congr 1
    by_cases hn : n ∈ names e
    · simp [hn]
    · simp [hn]

/-- What stands in a filled table was there before or is listed. -/
theorem mem_entries_insertAll (h : (k, a) ∈ (t.insertAll es).entries) : (k, a) ∈ t.entries ∨ (k, a) ∈ es := by
  rw [← get?_eq_some_iff, get?_insertAll, Option.or_eq_some_iff] at h
  rcases h with hlisted | ⟨-, hthere⟩
  · exact Or.inr (List.mem_reverse.mp (mem_of_lookup hlisted))
  · exact Or.inl (t.get?_eq_some_iff.mp hthere)

/-- What a table of entries holds is one of them. -/
theorem mem_of_get?_ofList (h : (ofList es).get? k = some a) : (k, a) ∈ es := by
  rw [ofList_eq_insertAll, get?_eq_some_iff] at h
  rcases mem_entries_insertAll h with h | h
  · cases h
  · exact h

/-- The keys after inserting are the old and the inserted ones. -/
theorem mem_keys_insertAll : k ∈ (t.insertAll es).keys ↔ k ∈ t.keys ∨ k ∈ es.map (·.1) := by
  have hlisted : (es.reverse.lookup k).isSome ↔ k ∈ es.map (·.1) := by
    rw [Option.isSome_iff_ne_none, List.mem_map]
    constructor
    · intro hne
      obtain ⟨a, ha⟩ := Option.ne_none_iff_exists'.mp hne
      exact ⟨(k, a), List.mem_reverse.mp (mem_of_lookup ha), rfl⟩
    · rintro ⟨⟨j, a⟩, he, rfl⟩
      exact lookup_ne_none_of_mem (List.mem_reverse.mpr he)
  rw [← has_iff_mem_keys, ← has_iff_mem_keys, has, get?_insertAll, Option.isSome_or, Bool.or_eq_true,
    hlisted, or_comm, has]

/-- The keys after inserting one are the old ones and this one. -/
theorem mem_keys_insert (t : Keyed α) (j k : String) (a : α) : j ∈ (t.insert k a).keys ↔ j ∈ t.keys ∨ j = k := by
  change j ∈ (t.insertAll [(k, a)]).keys ↔ _
  rw [mem_keys_insertAll, List.map_singleton, List.mem_singleton]

/-- A value stands under some key. -/
theorem exists_key_of_mem_values (h : a ∈ t.values) : ∃ k, (k, a) ∈ t.entries := by
  obtain ⟨⟨k, b⟩, hentry, rfl⟩ := List.mem_map.mp h
  exact ⟨k, hentry⟩

/-- A change that keeps an aspect of every value keeps the table of that aspect. -/
theorem map_modify {β : Type} (t : Keyed α) (k : String) {f : α → α} (aspect : α → β)
    (hf : ∀ a, aspect (f a) = aspect a) : (t.modify k f).map (fun _ => aspect) = t.map fun _ => aspect := by
  apply ext_entries
  change (t.entries.map _).map _ = t.entries.map _
  rw [List.map_map]
  refine List.map_congr_left fun e _ => ?_
  change (e.1, aspect (if e.1 = k then f e.2 else e.2)) = (e.1, aspect e.2)
  split
  · rw [hf]
  · rfl

/-- A key that is looked at can be put before or after looking; another one is not seen. -/
theorem filter_put (p : String → Bool) (k : String) (a : α) (es : List (String × α)) :
    (put k a es).filter (fun e => p e.1) =
      if p k then put k a (es.filter fun e => p e.1) else es.filter fun e => p e.1 := by
  induction es with
  | nil => by_cases hk : p k <;> simp [put, hk]
  | cons e es ih =>
    obtain ⟨j, b⟩ := e
    by_cases hjk : j = k
    · subst hjk
      by_cases hj : p j <;> simp [put, hj]
    · by_cases hj : p j
      · by_cases hk : p k <;> simp_all [put]
      · by_cases hk : p k <;> simp_all [put]

/-- Looking at some keys of a filled table is filling the keys looked at. -/
theorem filter_entries_insertAll (p : String → Bool) {u : Keyed α}
    (hu : u.entries = t.entries.filter fun e => p e.1) :
    (t.insertAll es).entries.filter (fun e => p e.1) = (u.insertAll (es.filter fun e => p e.1)).entries := by
  induction es generalizing t u with
  | nil => exact hu.symm
  | cons e es ih =>
    obtain ⟨j, b⟩ := e
    change ((t.insert j b).insertAll es).entries.filter _ = _
    have hput := filter_put p j b t.entries
    by_cases hj : p j
    · rw [if_pos hj, ← hu] at hput
      rw [List.filter_cons, if_pos hj]
      exact ih hput.symm
    · rw [if_neg hj, ← hu] at hput
      rw [List.filter_cons, if_neg hj]
      exact ih hput.symm

/-- A table that is given the entries of another has the values of that one first. -/
theorem get?_insertAll_entries (t u : Keyed α) (k : String) :
    (t.insertAll u.entries).get? k = (u.get? k).or (t.get? k) := by
  have hlookup : u.entries.reverse.lookup k = u.get? k := by
    have hnodup : (u.entries.reverse.map (·.1)).Nodup := by
      rw [List.map_reverse]
      exact (List.reverse_perm _).nodup_iff.mpr u.nodup
    apply Option.ext
    intro a
    rw [lookup_eq_some_iff hnodup, List.mem_reverse, get?_eq_some_iff]
  rw [get?_insertAll, hlookup]

/-- Of two values put under one key the last remains. -/
theorem put_put_self (k : String) (a b : α) (es : List (String × α)) : put k a (put k b es) = put k a es := by
  induction es with
  | nil => simp [put]
  | cons e es ih =>
    obtain ⟨j, c⟩ := e
    by_cases hjk : j = k
    · simp [put, hjk]
    · simp [put, hjk, ih]

/-- Under a key that is there a value can be put before or after one under another key. -/
theorem put_comm {j : String} (a b : α) (hjk : j ≠ k) (hk : k ∈ es.map (·.1)) :
    put k a (put j b es) = put j b (put k a es) := by
  induction es with
  | nil => cases hk
  | cons e es ih =>
    obtain ⟨i, c⟩ := e
    by_cases hik : i = k
    · subst hik
      simp [put, hjk.symm]
    · have hrest : k ∈ es.map (·.1) :=
        (List.mem_cons.mp hk).resolve_left fun heq => hik heq.symm
      by_cases hij : i = j
      · simp [put, hij, hjk]
      · simp [put, hik, hij, ih hrest]

/-- A value for a key that is there can be inserted before or after entries for others. -/
theorem insert_insertAll_comm (t : Keyed α) (a : α) (hk : k ∈ t.keys) (hes : k ∉ es.map (·.1)) :
    (t.insertAll es).insert k a = (t.insert k a).insertAll es := by
  induction es generalizing t with
  | nil => rfl
  | cons e es ih =>
    obtain ⟨j, b⟩ := e
    rw [List.map_cons, List.mem_cons, not_or] at hes
    have hkeys : k ∈ (t.insert j b).keys := (t.mem_keys_insert k j b).mpr (Or.inl hk)
    have hcomm : (t.insert j b).insert k a = (t.insert k a).insert j b :=
      ext_entries (put_comm a b (fun heq => hes.1 heq.symm) hk)
    change ((t.insert j b).insertAll es).insert k a = ((t.insert k a).insert j b).insertAll es
    rw [ih _ hkeys hes.2, hcomm]

/-- Filling from entries among which a key is put is filling from them and then putting the key. -/
theorem insertAll_put (t : Keyed α) (k : String) (a : α) (hnodup : (es.map (·.1)).Nodup) :
    t.insertAll (put k a es) = (t.insertAll es).insert k a := by
  induction es generalizing t with
  | nil => rfl
  | cons e es ih =>
    obtain ⟨j, b⟩ := e
    rw [List.map_cons, List.nodup_cons] at hnodup
    by_cases hjk : j = k
    · subst hjk
      have hkey : j ∈ (t.insert j b).keys := (t.mem_keys_insert j j b).mpr (Or.inr rfl)
      have hself : (t.insert j b).insert j a = t.insert j a :=
        ext_entries (put_put_self j a b t.entries)
      simp only [put, if_true]
      change (t.insert j a).insertAll es = ((t.insert j b).insertAll es).insert j a
      rw [insert_insertAll_comm _ a hkey hnodup.1, hself]
    · simp only [put, hjk, if_false]
      exact ih (t.insert j b) hnodup.2

/-- Giving over a table that is filled from a list is giving over what it had, and then filling. -/
theorem insertAll_entries_insertAll (t u : Keyed α) (es : List (String × α)) :
    t.insertAll (u.insertAll es).entries = (t.insertAll u.entries).insertAll es := by
  induction es generalizing u with
  | nil => rfl
  | cons e es ih =>
    obtain ⟨k, a⟩ := e
    change t.insertAll ((u.insert k a).insertAll es).entries = _
    rw [ih]
    change (t.insertAll (put k a u.entries)).insertAll es = _
    rw [insertAll_put t k a u.nodup]
    rfl

end RepoAtlas.Keyed
