import RepoAtlas.Extract.Go
import RepoAtlas.Proofs.Extract.TypeExpression

/-!
# Names of types without their marks

Pointer stars are taken off the front of a type, then slice brackets, then the package, each once. So a star
behind brackets is left, and so are marks behind the dot of a package.
-/

namespace RepoAtlas.Extract.Go

open Text (isBlank toList_strip trim Trimmed)

variable {c : Char} {s t u w : List Char}

/-! ### Marks before a name -/

/-- A mark that stands before the name of a type. -/
inductive Mark where
  | pointer
  | slice
  deriving DecidableEq

def Mark.text : Mark → List Char
  | .pointer => ['*']
  | .slice => ['[', ']']

/-- The marks that a text begins with. Blanks between them do not count. -/
def marks : List Char → List Mark
  | '*' :: t => .pointer :: marks t
  | '[' :: ']' :: t => .slice :: marks t
  | c :: t => if isBlank c then marks t else []
  | [] => []

/-- What is left of a text when marks of one kind and blanks are taken off its front. -/
inductive Stripped (kind : Mark) : List Char → List Char → Prop where
  | refl (t : List Char) : Stripped kind t t
  | blank {c : Char} {t u : List Char} (hc : isBlank c = true) (h : Stripped kind t u) : Stripped kind (c :: t) u
  | mark {t u : List Char} (h : Stripped kind t u) : Stripped kind (kind.text ++ t) u

variable {kind : Mark}

/-- A mark in front comes first. -/
theorem marks_append (kind : Mark) (t : List Char) : marks (kind.text ++ t) = kind :: marks t := by
  cases kind <;> rfl

/-- A blank in front does not count. -/
theorem marks_cons_of_isBlank (hc : isBlank c = true) (t : List Char) : marks (c :: t) = marks t := by
  rw [marks, if_pos hc]
  · rintro rfl
    exact absurd hc (by decide)
  · rintro rest rfl
    exact absurd hc (by decide)

/-- Only marks of the kind are taken off. -/
theorem Stripped.exists_marks (h : Stripped kind t u) : ∃ n, marks t = List.replicate n kind ++ marks u := by
  induction h with
  | refl t => exact ⟨0, rfl⟩
  | blank hc h ih => rwa [marks_cons_of_isBlank hc]
  | mark h ih =>
    obtain ⟨n, hn⟩ := ih
    exact ⟨n + 1, by rw [marks_append, hn]; rfl⟩

/-- What is taken off has no dot. -/
theorem Stripped.exists_front (h : Stripped kind t u) : ∃ front, t = front ++ u ∧ '.' ∉ front := by
  induction h with
  | refl t => exact ⟨[], rfl, List.not_mem_nil⟩
  | @blank c t u hc h ih =>
    obtain ⟨front, rfl, hfront⟩ := ih
    have hdot : '.' ≠ c := by
      rintro rfl
      exact absurd hc (by decide)
    exact ⟨c :: front, rfl, by simp [hdot, hfront]⟩
  | @mark t u h ih =>
    obtain ⟨front, rfl, hfront⟩ := ih
    have hmark : '.' ∉ kind.text := by cases kind <;> decide
    exact ⟨kind.text ++ front, by rw [List.append_assoc], by simp [hmark, hfront]⟩

/-- Dropping stars takes off pointers. -/
theorem stripped_dropStars (t : List Char) : Stripped .pointer t (dropStars t) := by
  have hdrop : ∀ t : List Char, Stripped .pointer t (t.dropWhile fun c => c = '*' || isBlank c) := by
    intro t
    induction t with
    | nil => exact .refl []
    | cons c t ih =>
      by_cases hstar : c = '*'
      · subst hstar
        exact .mark ih
      · by_cases hc : isBlank c = true
        · rw [List.dropWhile_cons_of_pos (by simp [hc])]
          exact .blank hc ih
        · rw [List.dropWhile_cons_of_neg (by simp [hstar, hc])]
          exact .refl _
  unfold dropStars
  split
  · exact hdrop t
  · exact .refl t

/-- Dropping brackets takes off slices. -/
theorem stripped_dropSlices (skipping : Bool) (t : List Char) : Stripped .slice t (dropSlices skipping t) := by
  fun_induction dropSlices skipping t with
  | case1 => exact .refl []
  | case2 skipping c hblank => exact .blank (by simp_all) (.refl [])
  | case3 skipping c hblank => exact .refl [c]
  | case4 skipping c d r hblank ih => exact .blank (by simp_all) ih
  | case5 skipping c d r hblank hslice ih =>
    obtain ⟨rfl, rfl⟩ : c = '[' ∧ d = ']' := by simpa using hslice
    exact .mark ih
  | case6 skipping c d r => exact .refl _

/-- After pointer stars comes neither a star nor a blank. -/
theorem head_dropStars (h : t.head?.any isBlank = false) :
    (dropStars t).head?.any (fun c => c = '*' || isBlank c) = false := by
  unfold dropStars
  split
  · exact Text.any_head?_dropWhile _ t
  · rename_i hstar
    cases t with
    | nil => rfl
    | cons c t => simp_all

/-- A slice begins with its two brackets. -/
theorem slice_prefix_iff {d : Char} : ['[', ']'] <+: c :: d :: t ↔ c = '[' ∧ d = ']' := by
  constructor
  · rintro ⟨rest, h⟩
    cases h
    exact ⟨rfl, rfl⟩
  · rintro ⟨rfl, rfl⟩
    exact List.prefix_append ['[', ']'] t

/-- After slice brackets come neither brackets nor a blank. -/
theorem head_dropSlices {skipping : Bool} (h : skipping = false → t.head?.any isBlank = false) :
    (dropSlices skipping t).head?.any isBlank = false ∧ ¬['[', ']'] <+: dropSlices skipping t := by
  fun_induction dropSlices skipping t with
  | case1 => simp
  | case2 => simp
  | case3 skipping c hblank => cases skipping <;> simp_all [List.prefix_cons_iff]
  | case4 skipping c d r hblank ih => exact ih (by simp)
  | case5 skipping c d r hblank hslice ih => exact ih (by simp)
  | case6 skipping c d r hblank hslice =>
    refine ⟨?_, fun hmark => hslice (by simp [slice_prefix_iff.mp hmark])⟩
    cases skipping <;> simp_all

/-- Without them nothing is dropped. -/
theorem dropSlices_of_not_prefix (h : ¬['[', ']'] <+: t) : dropSlices false t = t := by
  rcases t with - | ⟨c, - | ⟨d, r⟩⟩
  · rfl
  · rfl
  · have hslice : ¬(c = '[' && d = ']') = true := fun heq => h (slice_prefix_iff.mpr (by simpa using heq))
    rw [dropSlices, Bool.false_and, if_neg Bool.false_ne_true, if_neg hslice]

/-! ### Names without a package -/

/-- Without a dot the last segment is all. -/
theorem lastSegment_of_not_mem (h : '.' ∉ t) : lastSegment t = t := by
  have hall : ∀ c ∈ t.reverse, (c != '.') = true := by
    intro c hc
    simpa using fun heq : c = '.' => h (heq ▸ List.mem_reverse.mp hc)
  rw [lastSegment, List.takeWhile_eq_self_iff.mpr hall, List.reverse_reverse]

/-- What stands before a dot does not matter. -/
theorem lastSegment_append (h : '.' ∈ t) (s : List Char) : lastSegment (s ++ t) = lastSegment t := by
  obtain ⟨a, b, rfl⟩ := List.append_of_mem h
  simp [lastSegment, List.takeWhile_append]

/-- The last segment is an end. -/
theorem lastSegment_suffix (t : List Char) : lastSegment t <:+ t := by
  rw [← List.reverse_prefix, lastSegment, List.reverse_reverse]
  exact List.takeWhile_prefix _

/-- A type without the pointer stars and slice brackets before it. -/
def unmarked (type : String) : List Char :=
  dropSlices false (dropStars (trim isBlank type.toList))

/-- A base type is the last segment without marks. -/
theorem toList_baseType (type : String) : (baseType type).toList = lastSegment (unmarked type) :=
  String.toList_ofList

/-- What is taken off before a type has no dot. -/
theorem exists_front_unmarked (type : String) :
    ∃ front, trim isBlank type.toList = front ++ unmarked type ∧ '.' ∉ front := by
  obtain ⟨front, hfront, hdot⟩ := (stripped_dropStars (trim isBlank type.toList)).exists_front
  obtain ⟨more, hmore, hdot'⟩ := (stripped_dropSlices false (dropStars (trim isBlank type.toList))).exists_front
  refine ⟨front ++ more, ?_, by simp [hdot, hdot']⟩
  rw [unmarked, List.append_assoc, ← hmore, ← hfront]

/-- It is an end of the type. -/
theorem baseType_suffix (type : String) : (baseType type).toList <:+ trim isBlank type.toList := by
  obtain ⟨front, hfront, -⟩ := exists_front_unmarked type
  rw [toList_baseType, hfront]
  exact (lastSegment_suffix _).trans (List.suffix_append front _)

/-- A name is no pointer if no star is in front. -/
theorem begins_pointer_iff {name : String} : Text.begins name "*" = false ↔ name.toList.head? ≠ some '*' := by
  rw [← Bool.not_eq_true, Text.begins, List.isPrefixOf_iff_prefix]
  cases name.toList with
  | nil => simp
  | cons c t => simp [List.cons_prefix_cons, @eq_comm Char c]

/-- It is no slice if no brackets are in front. -/
theorem begins_slice_iff {name : String} : Text.begins name "[]" = false ↔ ¬['[', ']'] <+: name.toList := by
  rw [← Bool.not_eq_true, Text.begins, List.isPrefixOf_iff_prefix]
  rfl

/-- A text that begins with neither a blank nor a mark. -/
structure IsBare (t : List Char) : Prop where
  blank : t.head?.any isBlank = false
  pointer : t.head? ≠ some '*'
  slice : ¬['[', ']'] <+: t

/-- A bare text has no marks. -/
theorem IsBare.marks_eq_nil (h : IsBare t) : marks t = [] := by
  obtain ⟨hblank, hpointer, hslice⟩ := h
  fun_cases marks t with
  | case1 t => exact absurd rfl hpointer
  | case2 t => exact absurd (slice_prefix_iff.mpr ⟨rfl, rfl⟩) hslice
  | case3 c t hc => simp_all
  | case4 c t hc => rfl
  | case5 => rfl

/-- A name that has no dot and no blank at its end is left as it is exactly if it is bare. -/
theorem isBare_iff (name : String) (hdot : '.' ∉ name.toList) (hstop : name.toList.getLast?.any isBlank = false) :
    IsBare name.toList ↔ name.toList.head? ≠ some '*' ∧ ¬['[', ']'] <+: name.toList ∧ baseType name = name := by
  constructor
  · intro hbare
    refine ⟨hbare.pointer, hbare.slice, ?_⟩
    rw [← String.toList_inj, toList_baseType, unmarked, (Trimmed.mk hbare.blank hstop).trim_eq, dropStars,
      if_neg hbare.pointer, dropSlices_of_not_prefix hbare.slice, lastSegment_of_not_mem hdot]
  · rintro ⟨hpointer, hslice, hsame⟩
    refine ⟨?_, hpointer, hslice⟩
    have hlength : name.toList.length ≤ (name.toList.dropWhile isBlank).length := by
      have hsuffix := baseType_suffix name
      rw [hsame] at hsuffix
      exact hsuffix.length_le.trans (List.rdropWhile_prefix isBlank _).length_le
    cases hname : name.toList with
    | nil => rfl
    | cons c t =>
      by_contra hblank
      rw [hname, List.dropWhile_cons_of_pos (by simpa using hblank), List.length_cons] at hlength
      have hrest := (List.dropWhile_suffix isBlank (l := t)).length_le
      omega

/-- A type without the pointer stars before it begins with neither a star nor a blank. -/
theorem head_starless (type : String) :
    (dropStars (trim isBlank type.toList)).head? ≠ some '*' ∧
      (dropStars (trim isBlank type.toList)).head?.any isBlank = false := by
  have htrimmed := (Text.trimmed_strip type).start
  rw [toList_strip] at htrimmed
  have hhead := head_dropStars htrimmed
  cases hstars : (dropStars (trim isBlank type.toList)).head? with
  | none => simp
  | some c => simpa [hstars] using hhead

/-- Without marks no blank and no slice is in front. -/
theorem head_unmarked (type : String) : (unmarked type).head?.any isBlank = false ∧ ¬['[', ']'] <+: unmarked type :=
  head_dropSlices fun _ => (head_starless type).2

/-- No star is left before a name exactly if no star stands behind slice brackets. -/
theorem head_unmarked_ne_iff (type : String) :
    (unmarked type).head? ≠ some '*' ↔
      (marks (trim isBlank type.toList)).Pairwise fun a b => a = .slice → b = .slice := by
  obtain ⟨k, hk⟩ := (stripped_dropStars (trim isBlank type.toList)).exists_marks
  obtain ⟨m, hm⟩ := (stripped_dropSlices false (dropStars (trim isBlank type.toList))).exists_marks
  change marks _ = _ ++ marks (unmarked type) at hm
  rw [hk, hm, List.pairwise_append, List.pairwise_append]
  constructor
  · intro hstar
    obtain ⟨hblank, hslice⟩ := head_unmarked type
    rw [IsBare.marks_eq_nil ⟨hblank, hstar, hslice⟩]
    simp [List.pairwise_replicate]
  · rintro ⟨-, ⟨-, -, hpairs⟩, -⟩ hstar
    obtain ⟨t, ht⟩ := List.head?_eq_some_iff.mp hstar
    rw [ht] at hm hpairs
    -- Brackets were taken off before the star, or it would not have been left.
    have hslice : Mark.slice ∈ List.replicate m Mark.slice := by
      refine List.mem_replicate.mpr ⟨?_, rfl⟩
      rintro rfl
      by_cases hbrackets : ['[', ']'] <+: dropStars (trim isBlank type.toList)
      · obtain ⟨r, hr⟩ := hbrackets
        rw [← hr] at hm
        cases hm
      · rw [unmarked, dropSlices_of_not_prefix hbrackets] at hstar
        exact (head_starless type).1 hstar
    cases hpairs _ hslice .pointer List.mem_cons_self rfl

/-- The name of a type is final exactly if no mark or blank stands behind the dot of a package, and without a
package no star behind slice brackets. -/
theorem baseType_normal_iff (type : String) :
    (Text.begins (baseType type) "*" = false ∧ Text.begins (baseType type) "[]" = false ∧
        baseType (baseType type) = baseType type) ↔
      if '.' ∈ (Text.strip type).toList then IsBare (Text.afterLast '.' (Text.strip type)).toList
      else (marks (Text.strip type).toList).Pairwise fun a b => a = .slice → b = .slice := by
  have hdot : '.' ∉ (baseType type).toList := by
    have hlast := @Text.not_mem_afterLast '.' (String.ofList (unmarked type))
    rw [Text.afterLast, String.toList_ofList, String.toList_ofList] at hlast
    exact toList_baseType type ▸ hlast
  have hstop : (baseType type).toList.getLast?.any isBlank = false := by
    obtain ⟨front, hfront⟩ := baseType_suffix type
    have hlast := (Text.trimmed_strip type).stop
    rw [toList_strip, ← hfront, List.getLast?_append] at hlast
    cases hname : (baseType type).toList.getLast? with
    | none => rfl
    | some c => simpa [hname] using hlast
  rw [begins_pointer_iff, begins_slice_iff, ← isBare_iff (baseType type) hdot hstop, toList_baseType]
  obtain ⟨front, hfront, hfrontDot⟩ := exists_front_unmarked type
  have hlast : (Text.afterLast '.' (Text.strip type)).toList = lastSegment (trim isBlank type.toList) := by
    rw [Text.afterLast, String.toList_ofList, toList_strip]
    rfl
  rw [hlast, toList_strip]
  by_cases hmem : '.' ∈ unmarked type
  · have htype : '.' ∈ trim isBlank type.toList := hfront ▸ List.mem_append_right front hmem
    rw [if_pos htype, hfront, lastSegment_append hmem]
  · have htype : '.' ∉ trim isBlank type.toList := by
      rw [hfront, List.mem_append, not_or]
      exact ⟨hfrontDot, hmem⟩
    obtain ⟨hblank, hslice⟩ := head_unmarked type
    rw [if_neg htype, lastSegment_of_not_mem hmem, ← head_unmarked_ne_iff]
    exact ⟨IsBare.pointer, fun hstar => ⟨hblank, hstar, hslice⟩⟩

/-- The name of a slice of pointers keeps its star. -/
theorem slice_of_pointers_kept : baseType "[]*User" = "*User" ∧ baseType (baseType "[]*User") = "User" := by
  decide +kernel

end RepoAtlas.Extract.Go
