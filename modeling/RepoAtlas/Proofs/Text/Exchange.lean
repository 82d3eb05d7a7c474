import RepoAtlas.Proofs.Text.Cutting

/-!
# Exchanging a piece of text

Exchanging a piece for a shorter one leaves a text as it is exactly if the piece does not occur in it. An
occurrence does not stand across a separator, so the parts of a text are exchanged one by one.
-/

namespace RepoAtlas.Text

variable {old new s t : List Char} {sep c : Char} {skip : Nat}

/-- A piece occurs at the first character or later. -/
theorem occurs_cons (old : List Char) (c : Char) (s : List Char) :
    occurs old (c :: s) = (old.isPrefixOf (c :: s) || occurs old s) := rfl

/-- A piece is exchanged where it stands, else the first character stays. -/
theorem exchange_cons (old new : List Char) (c : Char) (s : List Char) :
    exchange old new 0 (c :: s) =
      if old.isPrefixOf (c :: s) then new ++ exchange old new (old.length - 1) s
      else c :: exchange old new 0 s := by
  rw [exchange]

/-- Where the piece does not occur nothing is exchanged. -/
theorem exchange_of_not_occurs (h : occurs old s = false) : exchange old new 0 s = s := by
  induction s with
  | nil => rfl
  | cons c s ih =>
    rw [occurs_cons, Bool.or_eq_false_iff] at h
    rw [exchange_cons, if_neg (Bool.eq_false_iff.mp h.1), ih h.2]

/-- What belongs to an occurrence already seen is passed over. -/
theorem exchange_length_append (old new t s : List Char) :
    exchange old new t.length (t ++ s) = exchange old new 0 s := by
  induction t with
  | nil => rfl
  | cons c t ih => exact ih

/-- Exchange for something no longer makes no text longer. -/
theorem length_exchange_le (hle : new.length ≤ old.length) (hskip : skip ≤ s.length) :
    (exchange old new skip s).length + skip ≤ s.length := by
  induction s generalizing skip with
  | nil => simpa [exchange] using hskip
  | cons c s ih =>
    cases skip with
    | succ skip =>
      have hrest := ih (Nat.le_of_succ_le_succ hskip)
      simp only [exchange, List.length_cons]
      omega
    | zero =>
      rw [exchange_cons]
      split
      · rename_i hpiece
        have hlength : old.length ≤ s.length + 1 := (List.isPrefixOf_iff_prefix.mp hpiece).length_le
        have hskip : old.length - 1 ≤ s.length := by omega
        have hrest := ih hskip
        simp only [List.length_append, List.length_cons]
        omega
      · have hrest := ih (Nat.zero_le s.length)
        simp only [List.length_cons]
        omega

/-- A piece that occurs is exchanged where it occurs first. -/
theorem exists_of_occurs (new : List Char) (hne : old ≠ []) (h : occurs old s = true) :
    ∃ a b, s = a ++ (old ++ b) ∧ exchange old new 0 s = a ++ (new ++ exchange old new 0 b) := by
  induction s with
  | nil =>
    cases old with
    | nil => exact absurd rfl hne
    | cons c old => simp [occurs, endings] at h
  | cons c s ih =>
    rw [occurs_cons] at h
    rw [exchange_cons]
    cases hpiece : old.isPrefixOf (c :: s) with
    | true =>
      obtain ⟨b, hb⟩ := List.isPrefixOf_iff_prefix.mp hpiece
      obtain ⟨d, rest, rfl⟩ := List.exists_cons_of_ne_nil hne
      rw [List.cons_append] at hb
      cases hb
      refine ⟨[], b, rfl, ?_⟩
      rw [if_pos rfl, List.nil_append, List.length_cons, Nat.add_sub_cancel, exchange_length_append]
    | false =>
      rw [hpiece, Bool.false_or] at h
      obtain ⟨a, b, rfl, hexchange⟩ := ih h
      exact ⟨c :: a, b, rfl, by rw [if_neg Bool.false_ne_true, hexchange, List.cons_append]⟩

/-- Exchange for something shorter makes a text with the piece shorter. -/
theorem length_exchange_lt (hlt : new.length < old.length) (h : occurs old s = true) :
    (exchange old new 0 s).length < s.length := by
  have hne : old ≠ [] := List.ne_nil_of_length_pos (Nat.zero_lt_of_lt hlt)
  obtain ⟨a, b, rfl, hexchange⟩ := exists_of_occurs new hne h
  have hrest := length_exchange_le hlt.le (Nat.zero_le b.length)
  rw [hexchange]
  simp only [List.length_append]
  omega

/-- A text stays as it is exactly if the piece does not occur. -/
theorem exchange_eq_self_iff (hlt : new.length < old.length) (s : List Char) :
    exchange old new 0 s = s ↔ occurs old s = false := by
  refine ⟨fun heq => Bool.eq_false_iff.mpr fun hoccurs => ?_, exchange_of_not_occurs⟩
  have hshorter := length_exchange_lt hlt hoccurs
  rw [heq] at hshorter
  exact Nat.lt_irrefl _ hshorter

/-- The characters come from the text or from what is put in. -/
theorem mem_exchange (h : c ∈ exchange old new skip s) : c ∈ new ∨ c ∈ s := by
  induction s generalizing skip with
  | nil => cases h
  | cons d s ih =>
    cases skip with
    | succ skip => exact (ih h).imp_right (List.mem_cons_of_mem d)
    | zero =>
      rw [exchange_cons] at h
      split at h
      · rcases List.mem_append.mp h with h | h
        · exact Or.inl h
        · exact (ih h).imp_right (List.mem_cons_of_mem d)
      · rcases List.mem_cons.mp h with rfl | h
        · exact Or.inr List.mem_cons_self
        · exact (ih h).imp_right (List.mem_cons_of_mem d)

/-- Two texts are exchanged one by one if no occurrence goes on from the first into the second. -/
theorem exchange_append (hacross : ∀ u, u ≠ [] → old.isPrefixOf (u ++ t) = old.isPrefixOf u) (hskip : skip ≤ s.length) :
    exchange old new skip (s ++ t) = exchange old new skip s ++ exchange old new 0 t := by
  induction s generalizing skip with
  | nil =>
    obtain rfl : skip = 0 := Nat.le_zero.mp hskip
    rfl
  | cons c s ih =>
    cases skip with
    | succ skip => exact ih (Nat.le_of_succ_le_succ hskip)
    | zero =>
      have hpiece := hacross (c :: s) (List.cons_ne_nil c s)
      rw [List.cons_append] at hpiece ⊢
      rw [exchange_cons, exchange_cons, hpiece]
      split
      · rename_i hbegins
        have hlength : old.length ≤ s.length + 1 := (List.isPrefixOf_iff_prefix.mp hbegins).length_le
        rw [ih (by omega), List.append_assoc]
      · rw [ih (Nat.zero_le s.length), List.cons_append]

/-- An occurrence does not stand across a separator. -/
theorem exchange_append_cons (hne : old ≠ []) (hsep : sep ∉ old) (s t : List Char) :
    exchange old new 0 (s ++ sep :: t) = exchange old new 0 s ++ sep :: exchange old new 0 t := by
  have hacross : ∀ u, old.isPrefixOf (u ++ sep :: t) = old.isPrefixOf u := by
    intro u
    rw [Bool.eq_iff_iff, List.isPrefixOf_iff_prefix, List.isPrefixOf_iff_prefix, prefix_append_cons_iff]
    refine or_iff_left ?_
    rintro ⟨more, rfl, -⟩
    exact hsep (List.mem_append_right u List.mem_cons_self)
  have hfirst : old.isPrefixOf (sep :: t) = false := by
    obtain ⟨c, rest, rfl⟩ := List.exists_cons_of_ne_nil hne
    exact hacross []
  rw [exchange_append (fun u _ => hacross u) (Nat.zero_le s.length), exchange_cons,
    if_neg (Bool.eq_false_iff.mp hfirst)]

/-- A piece without the separator can be exchanged before or after cutting. -/
theorem cut_exchange (hne : old ≠ []) (hold : sep ∉ old) (hnew : sep ∉ new) (s : List Char) :
    cut sep (exchange old new 0 s) = (cut sep s).map (exchange old new 0) := by
  by_cases hsep : sep ∈ s
  · obtain ⟨t, u, rfl⟩ := List.append_of_mem hsep
    rw [exchange_append_cons hne hold, cut_append_cons, cut_append_cons, List.map_append,
      cut_exchange hne hold hnew t, cut_exchange hne hold hnew u]
  · have hgone : sep ∉ exchange old new 0 s := fun hmem => (mem_exchange hmem).elim hnew hsep
    rw [cut_of_not_mem hsep, cut_of_not_mem hgone, List.map_singleton]
termination_by s.length

/-- An occurrence does not go on from a text into an occurrence behind it. -/
theorem isPrefixOf_append_self (hc : c ∉ old) (hs : s ≠ []) :
    (c :: old).isPrefixOf (s ++ c :: old) = (c :: old).isPrefixOf s := by
  rw [Bool.eq_iff_iff, List.isPrefixOf_iff_prefix, List.isPrefixOf_iff_prefix, prefix_append_cons_iff]
  refine or_iff_left ?_
  rintro ⟨more, heq, -⟩
  obtain ⟨d, s, rfl⟩ := List.exists_cons_of_ne_nil hs
  cases heq
  exact hc (List.mem_append_right s List.mem_cons_self)

/-- An occurrence at the end is exchanged on its own. -/
theorem exchange_append_self (hc : c ∉ old) (s : List Char) :
    exchange (c :: old) new 0 (s ++ c :: old) = exchange (c :: old) new 0 s ++ new := by
  have hend : exchange (c :: old) new old.length old = [] := by
    simpa [exchange] using exchange_length_append (c :: old) new old []
  have hself : (c :: old).isPrefixOf (c :: old) = true := List.isPrefixOf_iff_prefix.mpr List.prefix_rfl
  rw [exchange_append (fun u => isPrefixOf_append_self hc) (Nat.zero_le s.length), exchange_cons, if_pos hself,
    List.length_cons, Nat.add_sub_cancel, hend, List.append_nil]

end RepoAtlas.Text
