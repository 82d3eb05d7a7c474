/-!
# Searching and cutting text

Text is looked at as a list of characters: whether one text occurs in another, where it is cut,
and what it becomes when every occurrence of a piece is exchanged for another. Occurrences are
taken from the left and do not overlap.
-/

namespace RepoAtlas.Text

/-- Every final part of a list, the list itself first and the empty list last. -/
def endings {α : Type} : List α → List (List α)
  | [] => [[]]
  | a :: s => (a :: s) :: endings s

/-- Whether `piece` occurs in `s`. The empty piece occurs everywhere. -/
def occurs (piece s : List Char) : Bool :=
  (endings s).any piece.isPrefixOf

/-- Whether the text `piece` occurs in `s`. -/
def has (s piece : String) : Bool :=
  occurs piece.toList s.toList

/-- Whether `s` begins with `head`. -/
def begins (s head : String) : Bool :=
  head.toList.isPrefixOf s.toList

/-- Whether `s` ends with `tail`. -/
def ends (s tail : String) : Bool :=
  tail.toList.isSuffixOf s.toList

/-- Cut at every `sep`; there is one more part than there are separators. -/
def cut (sep : Char) : List Char → List (List Char)
  | [] => [[]]
  | c :: s =>
    if c = sep then [] :: cut sep s
    else match cut sep s with
      | [] => [[c]]
      | part :: rest => (c :: part) :: rest

/-- The parts of a text between the separators. -/
def split (sep : Char) (s : String) : List String :=
  (cut sep s.toList).map String.ofList

/-- The part before the first occurrence of `piece`, if there is one. -/
def before? (piece : List Char) : List Char → Option (List Char)
  | [] => if piece.isEmpty then some [] else none
  | c :: s =>
    if piece.isPrefixOf (c :: s) then some [] else (before? piece s).map (c :: ·)

/-- Exchange every occurrence of `old`; `skip` characters belong to an occurrence already seen. -/
def exchange (old new : List Char) : Nat → List Char → List Char
  | _, [] => []
  | skip + 1, _ :: s => exchange old new skip s
  | 0, c :: s =>
    if old.isPrefixOf (c :: s) then new ++ exchange old new (old.length - 1) s
    else c :: exchange old new 0 s

/-- Exchange every occurrence of the non-empty text `old` for `new`. -/
def replace (s old new : String) : String :=
  String.ofList (exchange old.toList new.toList 0 s.toList)

/-- Exchange one character for another. -/
def replaceChar (s : String) (old new : Char) : String :=
  String.ofList (s.toList.map fun c => if c = old then new else c)

/-- How many times `c` stands in `s`. -/
def countChar (s : String) (c : Char) : Nat :=
  s.toList.count c

/-- Remove characters that satisfy `p` from the end. -/
def trimEnd {α : Type} (p : α → Bool) (s : List α) : List α :=
  (s.reverse.dropWhile p).reverse

/-- Remove characters that satisfy `p` from both ends. -/
def trim (p : Char → Bool) (s : List Char) : List Char :=
  trimEnd p (s.dropWhile p)

/-- The text with a given end removed, if it has that end. -/
def withoutEnd? (s tail : String) : Option String :=
  if ends s tail then some (String.ofList (s.toList.take (s.length - tail.length))) else none

/-- The text with a given beginning removed, if it has that beginning. -/
def withoutStart? (s head : String) : Option String :=
  if begins s head then some (String.ofList (s.toList.drop head.length)) else none

/-- The text from the character at place `n` on. -/
def dropFirst (s : String) (n : Nat) : String :=
  String.ofList (s.toList.drop n)

/-- The parts joined with a separator between them. -/
def join (sep : String) (parts : List String) : String :=
  sep.intercalate parts

/-- What follows the last `sep`, or the whole text if there is none. -/
def afterLast (sep : Char) (s : String) : String :=
  String.ofList (s.toList.reverse.takeWhile (· != sep)).reverse

/-- What stands before the last `sep`, if there is one. -/
def beforeLast? (sep : Char) (s : String) : Option String :=
  match s.toList.reverse.dropWhile (· != sep) with
  | [] => none
  | _ :: r => some (String.ofList r.reverse)

/-- Cut at the first `sep`: what stands before it, and what follows. -/
def cutFirst (sep : Char) (s : String) : String × Option String :=
  let l := s.toList
  match l.dropWhile (· != sep) with
  | [] => (s, none)
  | _ :: r => (String.ofList (l.takeWhile (· != sep)), some (String.ofList r))

/-- Code-point order on texts, as a total comparison for sorting. -/
def atMost (a b : String) : Bool :=
  !(b < a)

/-- The texts in code-point order; equal texts keep their order. -/
def sorted (xs : List String) : List String :=
  xs.mergeSort atMost

/-- There is at least one part. -/
theorem cut_ne_nil (sep : Char) (s : List Char) : cut sep s ≠ [] := by
  cases s with
  | nil => simp [cut]
  | cons c s =>
    simp only [cut]
    split
    · simp
    · split <;> simp

/-- A text with a separator is what stands before the last one, that separator and what follows it. -/
theorem toList_of_beforeLast? {sep : Char} {s t : String} (h : beforeLast? sep s = some t) :
    s.toList = t.toList ++ sep :: (afterLast sep s).toList := by
  have hsplit := List.takeWhile_append_dropWhile (p := (· != sep)) (l := s.toList.reverse)
  unfold beforeLast? at h
  split at h
  · contradiction
  · rename_i c r hdrop
    have hc : c = sep := by
      have hhead := List.head?_dropWhile_not (· != sep) s.toList.reverse
      simpa [hdrop] using hhead
    subst hc
    obtain rfl := Option.some.inj h
    rw [hdrop] at hsplit
    have hwhole := congrArg List.reverse hsplit
    rw [List.reverse_append, List.reverse_reverse, List.reverse_cons, List.append_assoc,
      List.singleton_append] at hwhole
    rw [afterLast, String.toList_ofList, String.toList_ofList]
    exact hwhole.symm

end RepoAtlas.Text
