import RepoAtlas.Proofs.Extract.TypeName

/-!
# Receivers of generic types

The type of a receiver is its last word, without what is in brackets. With more parameters than one a generic
type has blanks in it, so the last parameter is taken for the type.
-/

namespace RepoAtlas.Extract.Go

open Text (isBlank trim trim_of_forall Trimmed wordsFrom)
open TypeComment (Name)

variable {c : Char} {s t w : List Char}

/-- The text of a receiver of a generic type: stars, the name of the type and its parameters in brackets. -/
def genericReceiver (stars : Nat) (n : Name) (parameters : List Name) : List Char :=
  List.replicate stars '*' ++ (n.text ++ '[' :: [',', ' '].intercalate (parameters.map Name.text)) ++ [']']

/-- Whether a character is neither blank nor one at which a receiver is cut. -/
def isSolid (c : Char) : Bool :=
  !isBlank c && !(['(', '*', '[', '.', ','].contains c)

/-- Without a parenthesis in front nothing is dropped. -/
theorem dropParentheses_of_head_ne (h : t.head? ≠ some '(') (n : Nat) : dropParentheses n t = t := by
  cases n with
  | zero => rfl
  | succ n => rw [dropParentheses, if_neg (by simp [h])]

/-- What is left of a receiver type when parentheses, stars, brackets, package and commas are taken off. -/
def receiverCore (t : List Char) : List Char :=
  trim (· = ',') (trim isBlank
    (lastSegment ((dropSlices false (dropStars (dropParentheses t.length t))).takeWhile (· != '['))))

/-- The solid characters behind the stars are what is left of a receiver type. -/
theorem receiverCore_eq (stars : Nat) (hne : w ≠ []) (hw : ∀ c ∈ w, isSolid c = true)
    (hs : s.takeWhile (· != '[') = []) : receiverCore (List.replicate stars '*' ++ (w ++ s)) = w := by
  have hsolid : ∀ c ∈ w, isBlank c = false ∧ c ≠ '(' ∧ c ≠ '*' ∧ c ≠ '[' ∧ c ≠ '.' ∧ c ≠ ',' :=
    fun c hc => by simpa [isSolid] using hw c hc
  obtain ⟨c, v, rfl⟩ := List.exists_cons_of_ne_nil hne
  obtain ⟨hblank, hparenthesis, hstar, hbracket, -, -⟩ := hsolid c List.mem_cons_self
  have hhead : (List.replicate stars '*' ++ (c :: v ++ s)).head? ≠ some '(' := by
    cases stars <;> simp [List.replicate_succ, hparenthesis]
  have hstars : dropStars (List.replicate stars '*' ++ (c :: v ++ s)) = c :: v ++ s := by
    cases stars with
    | zero => exact if_neg (by simp [hstar])
    | succ n =>
      have hdrop : (List.replicate (n + 1) '*' ++ (c :: v ++ s)).dropWhile (fun c => c = '*' || isBlank c) =
          c :: v ++ s := by
        rw [List.dropWhile_append_of_pos (by simp), Text.dropWhile_of_head (by simp [hstar, hblank])]
      exact (if_pos rfl).trans hdrop
  have hslices : ¬['[', ']'] <+: c :: v ++ s := fun h => hbracket (List.cons_prefix_cons.mp h).1.symm
  rw [receiverCore, dropParentheses_of_head_ne hhead, hstars, dropSlices_of_not_prefix hslices,
    List.takeWhile_append_of_pos fun d hd => by simp [hsolid d hd], hs, List.append_nil,
    lastSegment_of_not_mem fun hmem => (hsolid '.' hmem).2.2.2.2.1 rfl,
    trim_of_forall fun d hd => (hsolid d hd).1, trim_of_forall fun d hd => by simp [hsolid d hd]]

/-- The last word of a text. -/
theorem getLast?_wordsFrom (hne : w ≠ []) (hw : ∀ c ∈ w, isBlank c = false) (word s : List Char) :
    (wordsFrom word (s ++ ' ' :: w)).getLast? = some w := by
  have hlast : ∀ word w : List Char, (∀ c ∈ w, isBlank c = false) → word ++ w ≠ [] →
      wordsFrom word w = [word.reverse ++ w] := by
    intro word w hw hne
    induction w generalizing word with
    | nil =>
      simp at hne
      simp [wordsFrom, hne]
    | cons c w ih =>
      obtain ⟨hc, hw⟩ := List.forall_mem_cons.mp hw
      rw [wordsFrom, if_neg (by simp [hc]), ih (c :: word) hw (by simp)]
      simp
  have hw' := hlast [] w hw (by simpa using hne)
  induction s generalizing word with
  | nil =>
    have hblank : isBlank ' ' = true := by decide
    rw [List.nil_append, wordsFrom, if_pos hblank, hw']
    split <;> rfl
  | cons c s ih =>
    rw [List.cons_append, wordsFrom]
    split
    · split
      · exact ih []
      · rw [List.getLast?_cons, ih []]
        rfl
    · exact ih (c :: word)

/-- The part of a receiver that is taken for its type: the last word, if there are spaces. -/
def receiverWord (t : List Char) : List Char :=
  if t.contains ' ' then ((wordsFrom [] t).getLast?).getD [] else t

/-- A receiver is named by its core if that is not empty. -/
theorem receiverName?_of_core (htrim : trim isBlank t = t) (hne : t ≠ []) (hw : w ≠ [])
    (hcore : receiverCore (receiverWord t) = w) : receiverName? (String.ofList t) = some (String.ofList w) := by
  rw [receiverName?, String.toList_ofList, htrim, if_neg (by simpa using hne)]
  change (if (receiverCore (receiverWord t)).isEmpty then none else
    some (String.ofList (receiverCore (receiverWord t)))) = _
  rw [hcore, if_neg (by simpa using hw)]

/-- Names are solid. -/
theorem isSolid_of_mem (n : Name) (h : c ∈ n.text) : isSolid c = true := by
  have hsigns : ∀ d ∈ ['(', '*', '[', '.', ','], Text.isWordChar d = false := by
    simp only [List.forall_mem_cons, List.not_mem_nil, false_implies, implies_true, and_true]
    decide
  have hsign : c ∉ ['(', '*', '[', '.', ','] := fun hmem => n.not_mem (hsigns c hmem) h
  rw [isSolid, n.solid c h, List.contains_eq_mem, decide_eq_false hsign]
  rfl

/-- Before the last of several parameters stands a blank. -/
theorem exists_before_last (first last : Name) (rest : List Name) :
    ∃ front, [',', ' '].intercalate ((first :: rest ++ [last]).map Name.text) = front ++ ' ' :: last.text := by
  induction rest generalizing first with
  | nil => exact ⟨first.text ++ [','], by simp [List.intercalate]⟩
  | cons second rest ih =>
    obtain ⟨front, hfront⟩ := ih second
    refine ⟨first.text ++ ([',', ' '] ++ front), ?_⟩
    rw [List.cons_append, List.cons_append, List.map_cons, List.map_cons, List.intercalate_cons_cons,
      ← List.map_cons, ← List.cons_append, hfront]
    simp

/-- A receiver has no blanks at its ends. -/
theorem trim_genericReceiver (stars : Nat) (n : Name) (parameters : List Name) :
    trim isBlank (genericReceiver stars n parameters) = genericReceiver stars n parameters := by
  have hbracket : isBlank ']' = false := by decide
  have hstar : isBlank '*' = false := by decide
  obtain ⟨c, v, hv⟩ := List.exists_cons_of_ne_nil n.ne_nil
  have hc : isBlank c = false := n.solid c (by simp [hv])
  have htrimmed : Trimmed (String.ofList (genericReceiver stars n parameters)) := by
    constructor <;> rw [String.toList_ofList, genericReceiver]
    · cases stars <;> simp [List.replicate_succ, hv, hc, hstar]
    · rw [List.getLast?_concat]
      exact hbracket
  have htrim := htrimmed.trim_eq
  rwa [String.toList_ofList] at htrim

/-- With one parameter a generic receiver has the name of its type. -/
theorem receiverName?_of_single (stars : Nat) (n parameter : Name) :
    receiverName? (String.ofList (genericReceiver stars n [parameter])) = some (String.ofList n.text) := by
  have hspace : ' ' ∉ genericReceiver stars n [parameter] := by
    have hname : ∀ k : Name, ' ' ∉ k.text := fun k => k.not_mem (by decide)
    simp [genericReceiver, List.intercalate, hname]
  have hword : receiverWord (genericReceiver stars n [parameter]) =
      List.replicate stars '*' ++ (n.text ++ '[' :: (parameter.text ++ [']'])) := by
    rw [receiverWord, if_neg (by simpa using hspace)]
    simp [genericReceiver, List.intercalate]
  refine receiverName?_of_core (trim_genericReceiver stars n [parameter]) (by simp [genericReceiver]) n.ne_nil ?_
  rw [hword]
  exact receiverCore_eq stars n.ne_nil (fun c => isSolid_of_mem n) rfl

/-- With several it gets the last parameter and a bracket. -/
theorem receiverName?_of_several (stars : Nat) (n first last : Name) (rest : List Name) :
    receiverName? (String.ofList (genericReceiver stars n (first :: rest ++ [last]))) =
      some (String.ofList (last.text ++ [']'])) := by
  obtain ⟨front, hfront⟩ := exists_before_last first last rest
  have hsplit : genericReceiver stars n (first :: rest ++ [last]) =
      (List.replicate stars '*' ++ (n.text ++ '[' :: front)) ++ ' ' :: (last.text ++ [']']) := by
    rw [genericReceiver, hfront]
    simp
  have hsolid : ∀ c ∈ last.text ++ [']'], isSolid c = true := by
    intro c hc
    rcases List.mem_append.mp hc with hc | hc
    · exact isSolid_of_mem last hc
    · rw [List.mem_singleton.mp hc]
      decide
  have hblank : ∀ c ∈ last.text ++ [']'], isBlank c = false := by
    intro c hc
    have hc := hsolid c hc
    rw [isSolid, Bool.and_eq_true, Bool.not_eq_true'] at hc
    exact hc.1
  have hword : receiverWord (genericReceiver stars n (first :: rest ++ [last])) = last.text ++ [']'] := by
    rw [receiverWord, hsplit, if_pos (by simp), getLast?_wordsFrom (by simp) hblank, Option.getD_some]
  refine receiverName?_of_core (trim_genericReceiver stars n _) (by simp [genericReceiver]) (by simp) ?_
  have hcore := receiverCore_eq 0 (by simp) hsolid (s := []) rfl
  rw [hword]
  rwa [List.append_nil] at hcore

/-- The name of a generic type is found in a receiver exactly if the type has one parameter; else the last one
is taken. -/
theorem generic_receiver_named_iff (stars : Nat) (n last : Name) (parameters : List Name) :
    receiverName? (String.ofList (genericReceiver stars n (parameters ++ [last]))) =
        some (String.ofList (if parameters = [] then n.text else last.text ++ [']'])) ∧
      (receiverName? (String.ofList (genericReceiver stars n (parameters ++ [last]))) = some (String.ofList n.text) ↔
        parameters = []) := by
  cases parameters with
  | nil =>
    have hname := receiverName?_of_single stars n last
    exact ⟨hname, iff_of_true hname rfl⟩
  | cons first rest =>
    have hname := receiverName?_of_several stars n first last rest
    refine ⟨hname, iff_of_false (fun heq => ?_) (List.cons_ne_nil first rest)⟩
    rw [hname, Option.some.injEq, String.ofList_inj] at heq
    have hbracket : ']' ∈ n.text := heq ▸ List.mem_append_right last.text List.mem_cons_self
    exact n.not_mem (by decide) hbracket

/-- The type of a receiver with two type parameters is not found. -/
theorem pair_receiver_misread : receiverName? "*Pair[K, V]" = some "V]" := by
  decide +kernel

end RepoAtlas.Extract.Go
