import RepoAtlas.Extract.Go
import RepoAtlas.Proofs.Text.Tidy

/-!
# Embedded types that are taken for predeclared ones

Embedding a predeclared type relates nothing. What is predeclared is read off the text of the type, where
letters of `map` may stand in front and capitals count as small letters, so `Error` is taken for one and `any`
is not.
-/

namespace RepoAtlas.Extract.Go

open Syntax
open Text (any_head?_dropWhile dropWhile_of_forall dropWhile_of_head)

/-- A name of ASCII letters, digits and underscores that does not begin with a digit. -/
structure PlainName where
  text : String
  start : text.toList.head?.any (fun c => c.isAlpha || c = '_') = true
  all : text.toList.all (fun c => c.isAlphanum || c = '_') = true

/-- Whether a character is one of `map[`, as a map type begins. -/
def isMapLetter (c : Char) : Bool :=
  c = 'm' || c = 'a' || c = 'p' || c = '['

/-- A name that is taken for another one: before this stand letters of `map`, and capitals count as small letters.
The other name is not one that begins with such a letter itself. -/
def TakenFor (name type : String) : Prop :=
  ∃ lead word : List Char, name.toList = lead ++ word ∧ lead.all isMapLetter = true ∧
    word.head?.any isMapLetter = false ∧ Text.lower (String.ofList word) = type

/-- A name is taken for what is left without letters of `map[`, in lower case. -/
theorem takenFor_iff {name type : String} :
    TakenFor name type ↔ Text.lower (String.ofList (name.toList.dropWhile isMapLetter)) = type := by
  constructor
  · rintro ⟨lead, word, hname, hlead, hword, rfl⟩
    rw [hname, List.dropWhile_append_of_pos (by simpa using hlead), dropWhile_of_head hword]
  · intro heq
    exact ⟨_, _, List.takeWhile_append_dropWhile.symm, List.all_takeWhile, any_head?_dropWhile isMapLetter _, heq⟩

/-- A plain name counts as predeclared exactly if it is taken for a predeclared type. -/
theorem isPrimitive_iff (n : PlainName) :
    isPrimitive n.text = true ↔ ∃ type ∈ primitiveTypes, TakenFor n.text type := by
  have hplain : ∀ c ∈ n.text.toList, c ≠ '*' ∧ c ≠ '[' ∧ c ≠ ']' ∧ c ≠ '.' := by
    intro c hc
    have hall := List.all_eq_true.mp n.all c hc
    refine ⟨?_, ?_, ?_, ?_⟩ <;> rintro rfl <;> exact absurd hall (by decide)
  have hne : n.text ≠ "" := by
    intro h
    have hstart := n.start
    rw [h] at hstart
    cases hstart
  have hrest : ∀ c ∈ n.text.toList.dropWhile isMapLetter, c ≠ ']' ∧ c ≠ '.' := fun c hc =>
    (hplain c ((List.dropWhile_sublist _).subset hc)).2.2
  have htake {p : Char → Bool} (h : ∀ c ∈ n.text.toList.dropWhile isMapLetter, p c = true) :
      (n.text.toList.dropWhile isMapLetter).takeWhile p = n.text.toList.dropWhile isMapLetter :=
    List.takeWhile_eq_self_iff.mpr h
  have hread : isPrimitive n.text =
      primitiveTypes.contains (Text.lower (String.ofList (n.text.toList.dropWhile isMapLetter))) := by
    rw [isPrimitive, if_neg hne]
    dsimp only
    rw [dropWhile_of_forall (p := (· = '*')) fun c hc => by simp [hplain c hc],
      dropWhile_of_forall (p := fun c => c = '[' || c = ']') fun c hc => by simp [hplain c hc]]
    change primitiveTypes.contains (Text.lower (String.ofList
      (((n.text.toList.dropWhile isMapLetter).takeWhile (· != ']')).takeWhile (· != '.')))) = _
    rw [htake (p := (· != ']')) fun c hc => by simp [hrest c hc], htake fun c hc => by simp [hrest c hc]]
  rw [hread, List.contains_iff_mem]
  simp only [takenFor_iff, exists_eq_right']

/-- Every predeclared type but `any` is taken for itself. -/
theorem takenFor_self {type : String} (h : type ∈ primitiveTypes) (hany : type ≠ "any") : TakenFor type type := by
  have hself : ∀ p ∈ primitiveTypes, p ≠ "any" →
      Text.lower (String.ofList (p.toList.dropWhile isMapLetter)) = p := by decide +kernel
  exact takenFor_iff.mpr (hself type h hany)

/-- A plain name is told apart from the predeclared types exactly if it is not `any` and is taken for none but
itself; one that is taken for such a type is dropped. -/
theorem predeclared_told_apart_iff (n : PlainName) :
    ((isPrimitive n.text = true ↔ n.text ∈ primitiveTypes) ↔
      n.text ≠ "any" ∧ ∀ type ∈ primitiveTypes, TakenFor n.text type → n.text = type) ∧
    ∀ (s : Source) (c type : Cursor) (owner : String), s.text type = .ok n.text →
      (embeds s c owner type = .ok [] ↔ ∃ p ∈ primitiveTypes, TakenFor n.text p) := by
  refine ⟨?_, fun s c type owner htext => ?_⟩
  · by_cases hmem : n.text ∈ primitiveTypes
    · by_cases hany : n.text = "any"
      · have hfalse : isPrimitive "any" = false := by decide +kernel
        have hmem : "any" ∈ primitiveTypes := by decide
        simp [hany, hfalse, hmem]
      · have hself := takenFor_self hmem hany
        refine iff_of_true ⟨fun _ => hmem, fun _ => (isPrimitive_iff n).mpr ⟨_, hmem, hself⟩⟩ ⟨hany, ?_⟩
        intro type _ htaken
        exact (takenFor_iff.mp hself).symm.trans (takenFor_iff.mp htaken)
    · have hany : n.text ≠ "any" := fun h => hmem (h ▸ by decide)
      rw [isPrimitive_iff, iff_false_right hmem]
      constructor
      · intro hnone
        exact ⟨hany, fun type htype htaken => absurd ⟨type, htype, htaken⟩ hnone⟩
      · rintro ⟨-, hsame⟩ ⟨type, htype, htaken⟩
        exact hmem (hsame type htype htaken ▸ htype)
  · rw [← isPrimitive_iff, embeds, htext]
    change Except.ok (if isPrimitive n.text then [] else _) = Except.ok [] ↔ _
    split <;> simp_all

/-- The node of an embedded type that is called `Error`. -/
def errorNode : Cursor :=
  Cursor.ofTree ⟨"type_identifier", true, 0, 5, []⟩

/-- A type called `Error` is taken for a predeclared one and dropped, while `any` is not recognised. -/
theorem error_embedding_dropped :
    (isPrimitive "Error" = true ∧ "Error" ∉ primitiveTypes) ∧ (isPrimitive "any" = false ∧ "any" ∈ primitiveTypes) ∧
      embeds (Source.of "Error" "m.go" none) errorNode "Failure" errorNode = .ok [] :=
  ⟨by decide +kernel, by decide +kernel, by rfl⟩

end RepoAtlas.Extract.Go
