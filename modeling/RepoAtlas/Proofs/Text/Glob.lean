import RepoAtlas.Proofs.Text.Cutting
import RepoAtlas.Text.Glob

/-!
# Patterns of plain characters

A pattern without stars, question marks and brackets matches itself alone, and with a star before it the texts
that end in it.
-/

namespace RepoAtlas.Text

/-- Whether a character stands for itself in a pattern. -/
def isPlain (c : Char) : Bool :=
  c != '*' && c != '?' && c != '['

variable {cs : List Char} {p s : String}

/-- The endings of a list are its suffixes. -/
theorem mem_endings {α : Type} {t s : List α} : t ∈ endings s ↔ t <:+ s := by
  induction s with
  | nil => simp [endings]
  | cons a s ih => rw [endings, List.mem_cons, ih, List.suffix_cons_iff]

/-- A pattern without signs is read as its characters. -/
theorem globPartsFrom_of_isPlain (h : cs.all isPlain) {fuel : Nat} (hfuel : cs.length ≤ fuel) :
    globPartsFrom fuel cs = cs.map .char := by
  induction cs generalizing fuel with
  | nil => cases fuel <;> rfl
  | cons c cs ih =>
    obtain ⟨fuel, rfl⟩ : ∃ n, fuel = n + 1 := Nat.exists_eq_add_one.mpr (Nat.zero_lt_of_lt hfuel)
    rw [List.all_cons, Bool.and_eq_true] at h
    have hc : c ≠ '*' ∧ c ≠ '?' ∧ c ≠ '[' := by simpa [isPlain, and_assoc] using h.1
    have hrest := ih h.2 (Nat.le_of_succ_le_succ hfuel)
    simp [globPartsFrom, hc, hrest]

/-- Characters match just themselves. -/
theorem matchesParts_chars {t : List Char} : matchesParts (cs.map .char) t = true ↔ t = cs := by
  induction cs generalizing t with
  | nil => simp [matchesParts]
  | cons c cs ih =>
    cases t with
    | nil => simp [matchesParts]
    | cons d t => rw [List.map_cons, matchesParts, Bool.and_eq_true, beq_iff_eq, ih, List.cons.injEq, eq_comm]

/-- A pattern without signs matches just itself. -/
theorem globMatches_of_isPlain (h : p.toList.all isPlain) : globMatches p s = true ↔ s = p := by
  rw [globMatches, globParts, globPartsFrom_of_isPlain h (Nat.le_of_eq String.length_toList),
    matchesParts_chars, String.toList_inj]

/-- A plain pattern after a star matches what ends in it. -/
theorem globMatches_star (h : p.toList.all isPlain) :
    globMatches ("*" ++ p) s = true ↔ p.toList <:+ s.toList := by
  have hparts : globParts ("*" ++ p) = .star :: p.toList.map .char := by
    have hlength : ("*" ++ p).length = p.length + 1 := by
      rw [String.length_append, Nat.add_comm]
      rfl
    rw [globParts, hlength, String.toList_append]
    exact congrArg (GlobPart.star :: ·) (globPartsFrom_of_isPlain h (Nat.le_of_eq String.length_toList))
  rw [globMatches, hparts, matchesParts, List.any_eq_true]
  constructor
  · rintro ⟨t, ht, hmatch⟩
    obtain rfl := matchesParts_chars.mp hmatch
    exact mem_endings.mp ht
  · intro hend
    exact ⟨p.toList, mem_endings.mpr hend, matchesParts_chars.mpr rfl⟩

/-- A text ends in a separator and what follows the last one, and in nothing else of that kind. -/
theorem cons_suffix_iff {sep : Char} {u t : List Char} (hu : sep ∉ u) (ht : sep ∉ t) (front : List Char) :
    sep :: u <:+ front ++ sep :: t ↔ t = u := by
  constructor
  · rintro ⟨other, h⟩
    exact (append_cons_inj hu ht h).2.symm
  · rintro rfl
    exact List.suffix_append front (sep :: t)

end RepoAtlas.Text
