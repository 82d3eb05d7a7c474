import Mathlib.Data.List.TakeWhile
import RepoAtlas.Proofs.Text.Cutting
import RepoAtlas.Text.Blank

/-!
# Trimming and sorting

Trimming takes the blanks off both ends of a text. A text of blanks becomes empty, a text without blanks at its
ends stays as it is, and a beginning without blanks is kept. Sorting different texts puts each before those that
are greater.
-/

namespace RepoAtlas.Text

variable {s t : String} {xs : List String}

/-- The codes of the blanks. -/
def blankCodes : List Nat :=
  List.range' 9 5 ++ List.range' 28 5 ++ [0x85, 0xA0, 0x1680] ++ List.range' 0x2000 11 ++
    [0x2028, 0x2029, 0x202F, 0x205F, 0x3000]

/-- No character of a kind to which no code of a blank belongs is blank. -/
theorem isBlank_of_codes {p : Char → Bool} {c : Char} (hcodes : ∀ n ∈ blankCodes, p (Char.ofNat n) = false)
    (h : p c = true) : isBlank c = false := by
  by_contra hblank
  have hcode : c.toNat ∈ blankCodes := by
    simp only [isBlank, isWideBlank, Bool.not_eq_false, Bool.or_eq_true, Bool.and_eq_true, decide_eq_true_eq,
      beq_iff_eq] at hblank
    simp only [blankCodes, List.mem_append, List.mem_range'_1, List.mem_cons, List.not_mem_nil, or_false]
    omega
  have hfalse := hcodes _ hcode
  rw [Char.ofNat_toNat, h] at hfalse
  cases hfalse

/-- Trimming leaves nothing if all is to be trimmed. -/
theorem trim_eq_nil_iff {p : Char → Bool} {s : List Char} : trim p s = [] ↔ ∀ c ∈ s, p c := by
  rw [trim, trimEnd, List.reverse_eq_nil_iff, List.dropWhile_eq_nil_iff]
  refine ⟨fun h => ?_, fun h c hc => ?_⟩
  · rw [← List.dropWhile_eq_nil_iff]
    by_contra hne
    have hhead := List.head_dropWhile_not p hne
    exact Bool.false_ne_true (hhead.symm.trans (h _ (List.mem_reverse.mpr (List.head_mem hne))))
  · exact h c ((List.dropWhile_sublist p).subset (List.mem_reverse.mp hc))

/-- What is left does not begin with what is dropped. -/
theorem any_head?_dropWhile (p : Char → Bool) (s : List Char) : (s.dropWhile p).head?.any p = false := by
  have hhead := List.head?_dropWhile_not p s
  cases hdrop : (s.dropWhile p).head? with
  | none => rfl
  | some c => simpa [hdrop] using hhead

/-- Nothing is dropped if the first element is kept. -/
theorem dropWhile_of_head {p : Char → Bool} {s : List Char} (h : s.head?.any p = false) : s.dropWhile p = s := by
  cases s with
  | nil => rfl
  | cons c s => exact List.dropWhile_cons_of_neg (by simpa using h)

/-- Nothing is dropped if all elements are kept. -/
theorem dropWhile_of_forall {p : Char → Bool} {s : List Char} (h : ∀ c ∈ s, p c = false) : s.dropWhile p = s := by
  refine dropWhile_of_head ?_
  cases s with
  | nil => rfl
  | cons c s => exact h c List.mem_cons_self

/-- Nothing is trimmed if all characters are kept. -/
theorem trim_of_forall {p : Char → Bool} {s : List Char} (h : ∀ c ∈ s, p c = false) : trim p s = s := by
  have hback : s.reverse.dropWhile p = s.reverse := dropWhile_of_forall (by simpa using h)
  rw [trim, trimEnd, dropWhile_of_forall h, hback, List.reverse_reverse]

/-- Stripping trims blanks. -/
theorem toList_strip (s : String) : (strip s).toList = trim isBlank s.toList :=
  String.toList_ofList

/-- Something is left exactly if not all is blank. -/
theorem strip_ne_empty_iff : strip s ≠ "" ↔ ∃ c ∈ s.toList, isBlank c = false := by
  rw [strip, ne_eq, String.ofList_eq_empty_iff, trim_eq_nil_iff]
  simp only [not_forall, Bool.not_eq_true, exists_prop]

/-- Blanks in front do not matter. -/
theorem strip_append_of_forall (h : ∀ c ∈ s.toList, isBlank c = true) (t : String) : strip (s ++ t) = strip t := by
  rw [strip, strip, trim, trim, String.toList_append, List.dropWhile_append_of_pos h]

/-- A beginning without blanks is kept when a text is trimmed. -/
theorem strip_append (h : s.toList.any isBlank = false) (hne : s ≠ "") :
    strip (s ++ t) = s ++ String.ofList (trimEnd isBlank t.toList) := by
  have hs : ∀ c ∈ s.toList, isBlank c = false := by simpa using h
  obtain ⟨front, last, hend⟩ : ∃ front last, s.toList = front ++ [last] := by
    rcases List.eq_nil_or_concat s.toList with hnil | ⟨front, last, hend⟩
    · exact absurd (String.toList_eq_nil_iff.mp hnil) hne
    · exact ⟨front, last, by rw [hend, List.concat_eq_append]⟩
  have hlast : isBlank last = false := hs last (by simp [hend])
  have hstart : (s.toList ++ t.toList).dropWhile isBlank = s.toList ++ t.toList := by
    cases hcs : s.toList with
    | nil => exact absurd (String.toList_eq_nil_iff.mp hcs) hne
    | cons c cs => exact dropWhile_of_head (hs c (by simp [hcs]))
  rw [strip, String.toList_append, trim, hstart, hend, List.append_assoc, List.singleton_append,
    trimEnd_append_cons _ _ hlast, ← String.toList_inj]
  simp [hend]

/-- A text without blanks at its ends. -/
structure Trimmed (s : String) : Prop where
  start : s.toList.head?.any isBlank = false
  stop : s.toList.getLast?.any isBlank = false

instance (s : String) : Decidable (Trimmed s) :=
  decidable_of_iff (s.toList.head?.any isBlank = false ∧ s.toList.getLast?.any isBlank = false)
    ⟨fun h => ⟨h.1, h.2⟩, fun h => ⟨h.start, h.stop⟩⟩

/-- A trimmed text stays as it is. -/
theorem Trimmed.trim_eq (h : Trimmed s) : trim isBlank s.toList = s.toList := by
  have hstart : s.toList.dropWhile isBlank = s.toList := dropWhile_of_head h.start
  have hstop : trimEnd isBlank s.toList = s.toList := by
    rcases List.eq_nil_or_concat s.toList with hnil | ⟨front, last, hs⟩
    · rw [hnil]
      rfl
    · rw [List.concat_eq_append] at hs
      rw [hs, trimEnd_append_cons _ _ (by simpa [hs] using h.stop)]
      rfl
  rw [trim, hstart, hstop]

/-- Stripping leaves a trimmed text as it is. -/
theorem Trimmed.strip_eq (h : Trimmed s) : strip s = s := by
  rw [strip, h.trim_eq, String.ofList_toList]

/-- What is left was there. -/
theorem mem_of_mem_strip {c : Char} (h : c ∈ (strip s).toList) : c ∈ s.toList := by
  rw [toList_strip] at h
  exact (List.dropWhile_sublist isBlank).subset ((List.rdropWhile_prefix isBlank _).subset h)

/-- A stripped text is trimmed. -/
theorem trimmed_strip (s : String) : Trimmed (strip s) := by
  have hstart := any_head?_dropWhile isBlank s.toList
  have hprefix : trim isBlank s.toList <+: s.toList.dropWhile isBlank := List.rdropWhile_prefix isBlank _
  refine ⟨?_, ?_⟩ <;> rw [toList_strip]
  · cases hcs : trim isBlank s.toList with
    | nil => rfl
    | cons c cs =>
      obtain ⟨rest, hrest⟩ := hprefix
      rw [← hrest, hcs] at hstart
      exact hstart
  · rcases List.eq_nil_or_concat (trim isBlank s.toList) with hnil | ⟨front, last, hlast⟩
    · rw [hnil]
      rfl
    · rw [List.concat_eq_append] at hlast
      rw [hlast, List.getLast?_concat]
      exact eq_false_of_ne_true fun hblank => trimEnd_ne_concat hblank hlast

/-- One of two different texts comes before the other. -/
theorem lt_or_lt_of_ne (h : s ≠ t) : s < t ∨ t < s := by
  by_contra hneither
  rw [not_or, String.not_lt, String.not_lt] at hneither
  exact h (String.le_antisymm hneither.2 hneither.1)

/-- Sorting keeps the members. -/
theorem mem_sorted : s ∈ sorted xs ↔ s ∈ xs :=
  (List.mergeSort_perm xs atMost).mem_iff

/-- Different texts are sorted so that each stands before those that are greater. -/
theorem pairwise_lt_sorted (h : xs.Nodup) : (sorted xs).Pairwise (· < ·) := by
  have hordered : (sorted xs).Pairwise fun s t => atMost s t = true := by
    refine List.pairwise_mergeSort (fun a b c hab hbc => ?_) (fun a b => ?_) xs
    · simp only [atMost, Bool.not_eq_true', decide_eq_false_iff_not, String.not_lt] at *
      exact String.le_trans hab hbc
    · simp only [atMost, Bool.or_eq_true, Bool.not_eq_true', decide_eq_false_iff_not, String.not_lt]
      exact String.le_total a b
  have hdistinct : (sorted xs).Pairwise (· ≠ ·) := (List.mergeSort_perm xs atMost).nodup_iff.mpr h
  refine (hordered.and hdistinct).imp fun {a b} hab => ?_
  have hle : ¬b < a := by simpa [atMost] using hab.1
  exact String.not_le.mp fun hba => hab.2 (String.le_antisymm (String.not_lt.mp hle) hba)

end RepoAtlas.Text
