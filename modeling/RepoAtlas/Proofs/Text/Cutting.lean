import Mathlib.Data.List.DropRight
import RepoAtlas.Text.Search

/-!
# Cutting, joining and trimming

A text is cut at every separator, and its parts are joined to it again. Trimming the end takes off characters of
one kind and stops at the last one of another.
-/

namespace RepoAtlas.Text

variable {sep : Char} {s t : List Char}

/-- Without the separator a text is one part. -/
theorem cut_of_not_mem (h : sep ∉ s) : cut sep s = [s] := by
  induction s with
  | nil => rfl
  | cons c s ih =>
    have hc : c ≠ sep := fun heq => h (heq ▸ List.mem_cons_self)
    have hs : sep ∉ s := fun hmem => h (List.mem_cons_of_mem c hmem)
    rw [cut, if_neg hc, ih hs]

/-- A text is cut on both sides of a separator. -/
theorem cut_append_cons (s t : List Char) : cut sep (s ++ sep :: t) = cut sep s ++ cut sep t := by
  induction s with
  | nil => simp [cut]
  | cons c s ih =>
    by_cases hc : c = sep
    · simp [cut, hc, ih]
    · obtain ⟨part, rest, hcut⟩ := List.exists_cons_of_ne_nil (cut_ne_nil sep s)
      simp [cut, hc, ih, hcut]

/-- The characters of parts are those of the text but the separator. -/
theorem mem_of_mem_cut {part : List Char} {c : Char} (h : part ∈ cut sep s) (hc : c ∈ part) : c ∈ s ∧ c ≠ sep := by
  induction s generalizing part with
  | nil =>
    rw [cut, List.mem_singleton] at h
    cases h ▸ hc
  | cons a s ih =>
    have hlater : ∀ {part}, part ∈ cut sep s → c ∈ part → c ∈ a :: s ∧ c ≠ sep := fun h hc =>
      (ih h hc).imp_left (List.mem_cons_of_mem a)
    by_cases ha : a = sep
    · rw [cut, if_pos ha, List.mem_cons] at h
      rcases h with rfl | h
      · cases hc
      · exact hlater h hc
    · obtain ⟨first, rest, hcut⟩ := List.exists_cons_of_ne_nil (cut_ne_nil sep s)
      rw [hcut] at hlater
      simp only [cut, if_neg ha, hcut, List.mem_cons] at h
      rcases h with rfl | h
      · rcases List.mem_cons.mp hc with rfl | hc
        · exact ⟨List.mem_cons_self, ha⟩
        · exact hlater List.mem_cons_self hc
      · exact hlater (List.mem_cons_of_mem first h) hc

/-- No part has the separator. -/
theorem not_mem_of_mem_cut {part : List Char} (h : part ∈ cut sep s) : sep ∉ part := fun hmem =>
  (mem_of_mem_cut h hmem).2 rfl

/-- A text with several parts is cut at a separator between any two of them. -/
theorem exists_of_cut_append {xs ys : List (List Char)} (h : cut sep s = xs ++ ys) (hxs : xs ≠ []) (hys : ys ≠ []) :
    ∃ t u, s = t ++ sep :: u ∧ cut sep t = xs ∧ cut sep u = ys := by
  induction s generalizing xs with
  | nil =>
    have hlength := congrArg List.length h
    have hpos := List.length_pos_iff.mpr hxs
    have hpos' := List.length_pos_iff.mpr hys
    simp only [cut, List.length_append, List.length_cons, List.length_nil] at hlength
    omega
  | cons c s ih =>
    obtain ⟨x, xs, rfl⟩ := List.exists_cons_of_ne_nil hxs
    by_cases hc : c = sep
    · subst hc
      rw [cut, if_pos rfl, List.cons_append, List.cons.injEq] at h
      obtain ⟨rfl, hrest⟩ := h
      by_cases hnil : xs = []
      · subst hnil
        exact ⟨[], s, rfl, rfl, by simpa using hrest⟩
      · obtain ⟨t, u, rfl, ht, hu⟩ := ih hrest hnil
        exact ⟨c :: t, u, rfl, by simp [cut, ht], hu⟩
    · obtain ⟨part, rest, hcut⟩ := List.exists_cons_of_ne_nil (cut_ne_nil sep s)
      simp only [cut, if_neg hc, hcut, List.cons_append, List.cons.injEq] at h
      obtain ⟨rfl, rfl⟩ := h
      obtain ⟨t, u, rfl, ht, hu⟩ := ih hcut (List.cons_ne_nil part xs)
      exact ⟨c :: t, u, rfl, by simp [cut, hc, ht], hu⟩

/-- A text of one part is that part. -/
theorem eq_of_cut_singleton {part : List Char} (h : cut sep s = [part]) : s = part := by
  by_cases hsep : sep ∈ s
  · obtain ⟨t, u, rfl⟩ := List.append_of_mem hsep
    have hlength := congrArg List.length h
    have hpos := List.length_pos_iff.mpr (cut_ne_nil sep t)
    have hpos' := List.length_pos_iff.mpr (cut_ne_nil sep u)
    simp only [cut_append_cons, List.length_append, List.length_cons, List.length_nil] at hlength
    omega
  · rw [cut_of_not_mem hsep] at h
    exact (List.cons.inj h).1

/-- Texts that are joined by a separator with parts free of it are the same only part by part. -/
theorem append_cons_inj {s' t' : List Char} (ht : sep ∉ t) (ht' : sep ∉ t') (h : s ++ sep :: t = s' ++ sep :: t') :
    s = s' ∧ t = t' := by
  have hcut := congrArg (cut sep) h
  rw [cut_append_cons, cut_append_cons, cut_of_not_mem ht, cut_of_not_mem ht'] at hcut
  obtain rfl : t = t' := (List.append_singleton_inj.mp hcut).2
  exact ⟨List.append_cancel_right h, rfl⟩

/-- Without the separator a text is not split. -/
theorem split_of_not_mem {s : String} (h : sep ∉ s.toList) : split sep s = [s] := by
  rw [split, cut_of_not_mem h, List.map_singleton, String.ofList_toList]

/-- No part of a split text has the separator. -/
theorem not_mem_of_mem_split {s part : String} (h : part ∈ split sep s) : sep ∉ part.toList := by
  obtain ⟨cs, hcs, rfl⟩ := List.mem_map.mp h
  rw [String.toList_ofList]
  exact not_mem_of_mem_cut hcs

/-- Two texts with the separator between them are split apart. -/
theorem split_append_singleton (s t : String) :
    split sep (s ++ String.singleton sep ++ t) = split sep s ++ split sep t := by
  have hlist : (s ++ String.singleton sep ++ t).toList = s.toList ++ sep :: t.toList := by simp
  rw [split, hlist, cut_append_cons, List.map_append, split, split]

/-- Two paths with a slash between them are split apart. -/
theorem split_append_slash (s t : String) :
    split '/' (s ++ "/" ++ t) = split '/' s ++ split '/' t :=
  split_append_singleton s t

/-- Parts without the separator are split as they were joined. -/
theorem split_join_singleton {parts : List String} (hne : parts ≠ []) (h : ∀ p ∈ parts, sep ∉ p.toList) :
    split sep (join (String.singleton sep) parts) = parts := by
  induction parts with
  | nil => contradiction
  | cons p rest ih =>
    have hp : sep ∉ p.toList := h p List.mem_cons_self
    cases rest with
    | nil => rw [join, String.intercalate_singleton, split_of_not_mem hp]
    | cons q rest =>
      have hrest : split sep (join (String.singleton sep) (q :: rest)) = q :: rest :=
        ih (List.cons_ne_nil q rest) fun x hx => h x (List.mem_cons_of_mem p hx)
      have hjoin : join (String.singleton sep) (p :: q :: rest) =
          p ++ String.singleton sep ++ join (String.singleton sep) (q :: rest) := by
        simp only [join, String.intercalate_cons_cons]
      rw [hjoin, split_append_singleton, split_of_not_mem hp, hrest, List.singleton_append]

/-- Parts without slashes are split as they were joined. -/
theorem split_join {parts : List String} (hne : parts ≠ []) (h : ∀ p ∈ parts, '/' ∉ p.toList) :
    split '/' (join "/" parts) = parts :=
  split_join_singleton hne h

/-- What follows the last separator has none. -/
theorem not_mem_afterLast (s : String) : sep ∉ (afterLast sep s).toList := by
  rw [afterLast, String.toList_ofList, List.mem_reverse]
  intro hmem
  simpa using List.mem_takeWhile_imp hmem

/-- The last part is what follows the last separator. -/
theorem getLast?_split (s : String) : (split sep s).getLast? = some (afterLast sep s) := by
  cases hbefore : beforeLast? sep s with
  | some t =>
    rw [split, toList_of_beforeLast? hbefore, cut_append_cons, cut_of_not_mem (not_mem_afterLast s),
      List.map_append, List.map_singleton, List.getLast?_concat, String.ofList_toList]
  | none =>
    have hnil : s.toList.reverse.dropWhile (· != sep) = [] := by
      unfold beforeLast? at hbefore
      split at hbefore
      · assumption
      · cases hbefore
    have hall : ∀ c ∈ s.toList.reverse, (c != sep) = true := List.dropWhile_eq_nil_iff.mp hnil
    have hsep : sep ∉ s.toList := fun hmem => by simpa using hall sep (List.mem_reverse.mpr hmem)
    rw [split_of_not_mem hsep, afterLast, List.takeWhile_eq_self_iff.mpr hall, List.reverse_reverse,
      String.ofList_toList, List.getLast?_singleton]

/-- A text is cut into what stands before its first separator and the parts of what follows it. -/
theorem split_of_cutFirst {s first : String} {rest : Option String} (h : cutFirst sep s = (first, rest)) :
    split sep s = first :: (rest.map (split sep)).getD [] := by
  have hsplit := List.takeWhile_append_dropWhile (p := (· != sep)) (l := s.toList)
  dsimp only [cutFirst] at h
  split at h
  · rename_i hdrop
    cases h
    exact split_of_not_mem fun hmem => by simpa using List.dropWhile_eq_nil_iff.mp hdrop sep hmem
  · rename_i c r hdrop
    cases h
    obtain rfl : c = sep := by
      have hhead := List.head?_dropWhile_not (· != sep) s.toList
      simpa [hdrop] using hhead
    have hfirst : c ∉ s.toList.takeWhile (· != c) := fun hmem => by simpa using List.mem_takeWhile_imp hmem
    rw [hdrop] at hsplit
    calc
      split c s = (cut c (s.toList.takeWhile (· != c) ++ c :: r)).map String.ofList := by rw [split, hsplit]
      _ = String.ofList (s.toList.takeWhile (· != c)) :: split c (String.ofList r) := by
        rw [cut_append_cons, cut_of_not_mem hfirst, List.map_append, List.map_singleton,
          List.singleton_append, split, String.toList_ofList]

/-- Joining gives back what was split. -/
theorem join_split (s : String) : join (String.singleton sep) (split sep s) = s := by
  have hjoin : ∀ cs : List Char, [sep].intercalate (cut sep cs) = cs := by
    intro cs
    induction cs with
    | nil => rfl
    | cons c cs ih =>
      obtain ⟨part, rest, hcut⟩ := List.exists_cons_of_ne_nil (cut_ne_nil sep cs)
      by_cases hc : c = sep
      · rw [cut, if_pos hc, hcut, List.intercalate_cons_cons, ← hcut, ih, hc]
        rfl
      · rw [cut, if_neg hc, hcut]
        cases rest with
        | nil => simpa [hcut] using ih
        | cons next rest =>
          rw [hcut, List.intercalate_cons_cons] at ih
          simp only
          rw [List.intercalate_cons_cons, ← ih]
          rfl
  rw [← String.toList_inj, join, String.toList_intercalate, String.toList_singleton, split, List.map_map]
  simp [Function.comp_def, hjoin]

section

variable {p : Char → Bool} {c : Char}

/-- What is all to be trimmed adds nothing. -/
theorem trimEnd_append_of_forall (s : List Char) (h : ∀ c ∈ t, p c = true) : trimEnd p (s ++ t) = trimEnd p s := by
  rw [trimEnd, trimEnd, List.reverse_append, List.dropWhile_append_of_pos]
  simpa using h

/-- Copies of what is trimmed leave nothing. -/
theorem trimEnd_replicate (h : p c = true) (n : Nat) : trimEnd p (List.replicate n c) = [] :=
  trimEnd_append_of_forall [] fun _ hx => List.eq_of_mem_replicate hx ▸ h

/-- Trimming stops at a character that is kept. -/
theorem trimEnd_append_cons (s t : List Char) (h : p c = false) :
    trimEnd p (s ++ c :: t) = s ++ c :: trimEnd p t := by
  simp only [trimEnd, List.reverse_append, List.reverse_cons, List.append_assoc, List.singleton_append]
  rw [List.dropWhile_append]
  split
  · rename_i hall
    have hnil : t.reverse.dropWhile p = [] := by simpa using hall
    simp [h, hnil]
  · simp

/-- A trimmed text does not end in what is trimmed. -/
theorem trimEnd_ne_concat (h : p c = true) : trimEnd p s ≠ t ++ [c] := by
  intro heq
  have hagain : trimEnd p (trimEnd p s) = trimEnd p s := List.rdropWhile_idempotent p s
  have hstart : trimEnd p t <+: t := List.rdropWhile_prefix p t
  rw [heq, trimEnd_append_of_forall t (by simpa using h)] at hagain
  have hlength := hstart.length_le
  rw [hagain, List.length_append, List.length_singleton] at hlength
  omega

/-- What is trimmed off is a run of the trimmed character. -/
theorem exists_replicate_of_trimEnd (c : Char) (s : List Char) :
    ∃ n, s = trimEnd (· = c) s ++ List.replicate n c := by
  have hrun : s.rtakeWhile (· = c) = List.replicate (s.rtakeWhile (· = c)).length c := by
    refine List.eq_replicate_of_mem fun x hx => ?_
    simpa using List.mem_rtakeWhile_imp hx
  refine ⟨(s.rtakeWhile (· = c)).length, ?_⟩
  rw [← hrun]
  exact (List.rdropWhile_append_rtakeWhile).symm

end

/-- A start that is added can be taken away. -/
theorem withoutStart?_append (head s : String) : withoutStart? (head ++ s) head = some s := by
  simp [withoutStart?, begins, ← String.length_toList]

/-- A text that begins with a start goes on from it. -/
theorem exists_of_begins {s head : String} (h : begins s head = true) : ∃ rest, s = head ++ rest := by
  obtain ⟨t, ht⟩ := List.isPrefixOf_iff_prefix.mp h
  exact ⟨String.ofList t, by rw [← String.toList_inj, ← ht]; simp⟩

/-- A text is a start and what is left without it. -/
theorem eq_append_of_withoutStart? {s head rest : String} (h : withoutStart? s head = some rest) :
    s = head ++ rest := by
  have hbegins : begins s head = true := (Option.ite_none_right_eq_some.mp h).1
  obtain ⟨t, rfl⟩ := exists_of_begins hbegins
  rw [withoutStart?_append, Option.some.injEq] at h
  rw [h]

/-- A beginning of joined parts ends in the first, or holds the separator and a beginning of the second. -/
theorem prefix_append_cons_iff {piece : List Char} :
    piece <+: s ++ sep :: t ↔ piece <+: s ∨ ∃ more, piece = s ++ sep :: more ∧ more <+: t := by
  constructor
  · intro h
    rcases List.prefix_or_prefix_of_prefix h (List.prefix_append s (sep :: t)) with hshort | ⟨rest, rfl⟩
    · exact Or.inl hshort
    · rcases List.prefix_cons_iff.mp ((List.prefix_append_right_inj s).mp h) with rfl | ⟨more, rfl, hmore⟩
      · exact Or.inl (by simp)
      · exact Or.inr ⟨more, rfl, hmore⟩
  · rintro (h | ⟨more, rfl, hmore⟩)
    · exact h.trans (List.prefix_append s (sep :: t))
    · exact (List.prefix_append_right_inj s).mpr (List.cons_prefix_cons.mpr ⟨rfl, hmore⟩)

/-- A beginning of a dotted name ends before the dot, or holds it and a beginning of what follows. -/
theorem begins_append_dot_iff {front name piece : String} :
    begins (front ++ "." ++ name) piece = true ↔
      begins front piece = true ∨ ∃ more, piece = front ++ "." ++ more ∧ begins name more = true := by
  have hdot : ∀ more : String, (front ++ "." ++ more).toList = front.toList ++ '.' :: more.toList :=
    fun more => by simp
  simp only [begins, List.isPrefixOf_iff_prefix, hdot, prefix_append_cons_iff]
  refine or_congr_right ⟨?_, ?_⟩
  · rintro ⟨more, hpiece, hmore⟩
    refine ⟨String.ofList more, ?_, ?_⟩
    · rw [← String.toList_inj, hdot, String.toList_ofList, hpiece]
    · rwa [String.toList_ofList]
  · rintro ⟨more, rfl, hmore⟩
    exact ⟨more.toList, hdot more, hmore⟩

end RepoAtlas.Text
