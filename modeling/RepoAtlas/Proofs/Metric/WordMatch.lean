import Mathlib.Data.List.DropRight
import RepoAtlas.Metric.Cognitive

/-!
# Words and operators as matches of patterns

A pattern finds two equal characters out of given ones, or a given word with a word edge on both sides. Such
matches are counted by doubled characters and maximal runs of word characters.
-/

namespace RepoAtlas.Metric

open Text (isWordChar wordRuns wordRunsFrom)

/-! ## Patterns -/

/-- Whether a word begins or ends between a character, which may be a word character, and a text. -/
def isEdge (inWord : Bool) (s : List Char) : Bool :=
  inWord != s.head?.any isWordChar

/-- Whether a text begins with two equal characters out of given ones. -/
def beginsDouble (doubles : List Char) : List Char → Bool
  | a :: b :: _ => a = b && doubles.contains a
  | _ => false

/-- Whether a word stands at the beginning of a text with an edge on both sides. -/
def stands (inWord : Bool) (s : List Char) (word : String) : Bool :=
  isEdge inWord s && word.toList.isPrefixOf s && isEdge true (s.drop word.length)

/-- The length of what is found at the beginning of a text, where `inWord` tells whether a word character stands before
it: two equal characters or a word. Zero says that nothing is found. -/
def foundLength (doubles : List Char) (words : List String) (inWord : Bool) (s : List Char) : Nat :=
  if beginsDouble doubles s then 2 else ((words.find? (stands inWord s)).map String.length).getD 0

/-- How many times something is found in a text, where `skip` characters belong to what was found before. -/
def matchesFrom (doubles : List Char) (words : List String) : Nat → Bool → List Char → Nat
  | _, _, [] => 0
  | skip + 1, _, c :: s => matchesFrom doubles words skip (isWordChar c) s
  | 0, inWord, c :: s =>
    match foundLength doubles words inWord (c :: s) with
    | 0 => matchesFrom doubles words 0 (isWordChar c) s
    | n + 1 => matchesFrom doubles words n (isWordChar c) s + 1

/-- How many times doubled characters and free words are found in a line. -/
def countMatches (doubles : List Char) (words : List String) (line : String) : Nat :=
  matchesFrom doubles words 0 false line.toList

/-- Doubled characters are not word characters, words consist of them. -/
structure IsPattern (doubles : List Char) (words : List String) : Prop where
  double : ∀ c ∈ doubles, isWordChar c = false
  nonempty : ∀ w ∈ words, w ≠ ""
  word : ∀ w ∈ words, ∀ c ∈ w.toList, isWordChar c = true

variable {doubles : List Char} {words : List String} {c d : Char} {s t : List Char} {inWord : Bool} {word : String}

/-! ## Runs of word characters -/

/-- A run that was begun goes on to the end of its word. -/
theorem wordRunsFrom_of_ne_nil {run : List Char} (hne : run ≠ []) (s : List Char) :
    wordRunsFrom run s = (run.reverse ++ s.takeWhile isWordChar) :: wordRuns (s.dropWhile isWordChar) := by
  induction s generalizing run with
  | nil => simp [wordRunsFrom, wordRuns, hne]
  | cons c s ih =>
    rw [wordRunsFrom]
    cases hc : isWordChar c with
    | true =>
      rw [if_pos rfl, ih (List.cons_ne_nil c run), List.takeWhile_cons_of_pos hc, List.dropWhile_cons_of_pos hc]
      simp
    | false =>
      have hrun : run.isEmpty = false := by simpa using hne
      rw [List.takeWhile_cons_of_neg (by simp [hc]), List.dropWhile_cons_of_neg (by simp [hc]), wordRuns,
        wordRunsFrom]
      simp [hc, hrun]

/-- A word character begins a run. -/
theorem wordRuns_of_isWordChar (hc : isWordChar c = true) (s : List Char) :
    wordRuns (c :: s) = (c :: s.takeWhile isWordChar) :: wordRuns (s.dropWhile isWordChar) := by
  rw [wordRuns, wordRunsFrom, if_pos hc, wordRunsFrom_of_ne_nil (List.cons_ne_nil c [])]
  rfl

/-- Other characters are passed over. -/
theorem wordRuns_of_not_isWordChar (hc : isWordChar c = false) (s : List Char) : wordRuns (c :: s) = wordRuns s := by
  rw [wordRuns, wordRunsFrom]
  simp [hc, wordRuns]

/-! ## Free words -/

/-- A word stands free at a place outside of words exactly if it is the whole run of word characters there. -/
theorem stands_iff (hne : word ≠ "") (hword : ∀ c ∈ word.toList, isWordChar c = true) (s : List Char) :
    stands false s word = true ↔ word.toList = s.takeWhile isWordChar := by
  have hlength : word.length = word.toList.length := String.length_toList.symm
  simp only [stands, Bool.and_eq_true, List.isPrefixOf_iff_prefix]
  constructor
  · rintro ⟨⟨-, rest, rfl⟩, hrest⟩
    rw [hlength, List.drop_left] at hrest
    have hstop : rest.takeWhile isWordChar = [] := by
      cases rest with
      | nil => rfl
      | cons c rest => exact List.takeWhile_cons_of_neg (by simpa [isEdge] using hrest)
    rw [List.takeWhile_append_of_pos hword, hstop, List.append_nil]
  · intro hrun
    have hs : s = word.toList ++ s.dropWhile isWordChar := by
      rw [hrun]
      exact List.takeWhile_append_dropWhile.symm
    have hrest : isEdge true (s.dropWhile isWordChar) = true := by
      cases hdrop : s.dropWhile isWordChar with
      | nil => rfl
      | cons c rest =>
        have hc := List.head?_dropWhile_not isWordChar s
        rw [hdrop] at hc
        simpa [isEdge] using hc
    refine ⟨⟨?_, s.dropWhile isWordChar, hs.symm⟩, ?_⟩
    · cases hcs : word.toList with
      | nil => exact absurd (String.toList_eq_nil_iff.mp hcs) hne
      | cons c cs =>
        rw [hcs] at hs hword
        rw [hs]
        simpa [isEdge] using hword c List.mem_cons_self
    · rw [hs, hlength, List.drop_left]
      exact hrest

/-- No word stands free inside a word. -/
theorem stands_in_word (hc : isWordChar c = true) (s : List Char) (word : String) :
    stands true (c :: s) word = false := by
  simp [stands, isEdge, hc]

/-- No word begins with another character. -/
theorem IsPattern.not_stands (hp : IsPattern doubles words) (hc : isWordChar c = false) (hword : word ∈ words) :
    stands inWord (c :: s) word = false := by
  have hprefix : word.toList.isPrefixOf (c :: s) = false := by
    cases hcs : word.toList with
    | nil => exact absurd (String.toList_eq_nil_iff.mp hcs) (hp.nonempty word hword)
    | cons d ds =>
      have hd := hp.word word hword d (hcs ▸ List.mem_cons_self)
      have hdc : d ≠ c := fun heq => by rw [heq, hc] at hd; exact Bool.false_ne_true hd
      simp [List.isPrefixOf, hdc]
  simp [stands, hprefix]

/-! ## Steps of the search -/

/-- Outside of words only doubled characters are found. -/
theorem IsPattern.foundLength_eq (hp : IsPattern doubles words) (hc : isWordChar c = false) (inWord : Bool)
    (s : List Char) : foundLength doubles words inWord (c :: s) = if beginsDouble doubles (c :: s) then 2 else 0 := by
  have hnone : words.find? (stands inWord (c :: s)) = none :=
    List.find?_eq_none.mpr fun word hword => by simp [hp.not_stands hc hword]
  rw [foundLength, hnone]
  rfl

/-- No doubled character begins with a word character. -/
theorem IsPattern.not_beginsDouble (hp : IsPattern doubles words) (hc : isWordChar c = true) (s : List Char) :
    beginsDouble doubles (c :: s) = false := by
  have hmem : c ∉ doubles := fun hmem => by rw [hp.double c hmem] at hc; exact Bool.false_ne_true hc
  cases s <;> simp [beginsDouble, hmem]

/-- Nothing is found inside a word. -/
theorem IsPattern.foundLength_in_word (hp : IsPattern doubles words) (hc : isWordChar c = true) (s : List Char) :
    foundLength doubles words true (c :: s) = 0 := by
  have hnone : words.find? (stands true (c :: s)) = none :=
    List.find?_eq_none.mpr fun word _ => by simp [stands_in_word hc s word]
  rw [foundLength, hp.not_beginsDouble hc, hnone]
  rfl

/-- The search goes on behind the word in which it is. -/
theorem IsPattern.matchesFrom_in_word (hp : IsPattern doubles words) (s : List Char) :
    matchesFrom doubles words 0 true s = matchesFrom doubles words 0 false (s.dropWhile isWordChar) := by
  induction s with
  | nil => rfl
  | cons c s ih =>
    cases hc : isWordChar c with
    | true => rw [matchesFrom, hp.foundLength_in_word hc, List.dropWhile_cons_of_pos hc, hc, ih]
    | false =>
      rw [List.dropWhile_cons_of_neg (by simp [hc]), matchesFrom, matchesFrom, hp.foundLength_eq hc,
        hp.foundLength_eq hc]

/-- The rest of a word that was found is passed over. -/
theorem matchesFrom_length_append {run : List Char} (hrun : ∀ c ∈ run, isWordChar c = true) (s : List Char) :
    matchesFrom doubles words run.length true (run ++ s) = matchesFrom doubles words 0 true s := by
  induction run with
  | nil => rfl
  | cons c run ih =>
    rw [List.forall_mem_cons] at hrun
    rw [List.length_cons, List.cons_append, matchesFrom, hrun.1, ih hrun.2]

/-- Of a run of word characters one match is found if the run is one of the words, and else none. -/
theorem IsPattern.matchesFrom_of_isWordChar (hp : IsPattern doubles words) (hc : isWordChar c = true)
    (s : List Char) :
    matchesFrom doubles words 0 false (c :: s) =
      matchesFrom doubles words 0 false (s.dropWhile isWordChar) +
        if words.contains (String.ofList (c :: s.takeWhile isWordChar)) then 1 else 0 := by
  have hstands : ∀ word ∈ words, (stands false (c :: s) word = true ↔ word.toList = c :: s.takeWhile isWordChar) := by
    intro word hword
    rw [stands_iff (hp.nonempty word hword) (hp.word word hword), List.takeWhile_cons_of_pos hc]
  rw [matchesFrom, foundLength, hp.not_beginsDouble hc, if_neg Bool.false_ne_true, hc]
  cases hfind : words.find? (stands false (c :: s)) with
  | none =>
    have hnot : words.contains (String.ofList (c :: s.takeWhile isWordChar)) = false := by
      rw [List.contains_eq_mem, decide_eq_false_iff_not]
      intro hmem
      exact List.find?_eq_none.mp hfind _ hmem ((hstands _ hmem).mpr String.toList_ofList)
    rw [hnot]
    exact hp.matchesFrom_in_word s
  | some word =>
    have hmem := List.mem_of_find?_eq_some hfind
    have hword := (hstands word hmem).mp (List.find?_some hfind)
    have hlength : word.length = (s.takeWhile isWordChar).length + 1 := by
      rw [← String.length_toList, hword, List.length_cons]
    have hrun : ∀ d ∈ s.takeWhile isWordChar, isWordChar d = true := fun d hd => List.mem_takeWhile_imp hd
    have hskip : matchesFrom doubles words _ true _ = _ := matchesFrom_length_append hrun (s.dropWhile isWordChar)
    rw [List.takeWhile_append_dropWhile] at hskip
    have hcontains : words.contains (String.ofList (c :: s.takeWhile isWordChar)) = true := by
      rw [← hword, String.ofList_toList]
      simpa using hmem
    simp only [Option.map_some, Option.getD_some, hlength, hcontains, if_true]
    rw [hskip, hp.matchesFrom_in_word, List.dropWhile_idempotent]

/-! ## Counting -/

/-- How many times two equal characters out of given ones stand side by side, counted without overlap. -/
def countDoubles (doubles : List Char) : List Char → Nat
  | a :: b :: s =>
    if a = b && doubles.contains a then countDoubles doubles s + 1 else countDoubles doubles (b :: s)
  | _ => 0

/-- Where no doubled character begins none is counted. -/
theorem countDoubles_of_not_beginsDouble (h : beginsDouble doubles (c :: s) = false) :
    countDoubles doubles (c :: s) = countDoubles doubles s := by
  cases s with
  | nil => rfl
  | cons d s =>
    rw [beginsDouble] at h
    rw [countDoubles, h]
    rfl

/-- A word has no doubled characters to count. -/
theorem IsPattern.countDoubles_append (hp : IsPattern doubles words) {run : List Char}
    (hrun : ∀ c ∈ run, isWordChar c = true) (s : List Char) :
    countDoubles doubles (run ++ s) = countDoubles doubles s := by
  induction run with
  | nil => rfl
  | cons c run ih =>
    rw [List.forall_mem_cons] at hrun
    rw [List.cons_append, countDoubles_of_not_beginsDouble (hp.not_beginsDouble hrun.1 _), ih hrun.2]

/-- A word counts if it is one of those looked for. -/
theorem countWords_of_isWordChar (words : List String) (hc : isWordChar c = true) (s : List Char) :
    countWords words (c :: s) = countWords words (s.dropWhile isWordChar) +
      if words.contains (String.ofList (c :: s.takeWhile isWordChar)) then 1 else 0 := by
  rw [countWords, wordRuns_of_isWordChar hc, List.filter_cons]
  split <;> rfl

/-- Other characters do not count. -/
theorem countWords_of_not_isWordChar (words : List String) (hc : isWordChar c = false) (s : List Char) :
    countWords words (c :: s) = countWords words s := by
  rw [countWords, wordRuns_of_not_isWordChar hc, countWords]

/-- What a pattern finds are the doubled characters and the runs that are words. -/
theorem IsPattern.matchesFrom_eq (hp : IsPattern doubles words) (s : List Char) :
    matchesFrom doubles words 0 false s = countDoubles doubles s + countWords words s := by
  induction hn : s.length using Nat.strong_induction_on generalizing s with
  | _ n ih =>
    cases s with
    | nil => rfl
    | cons c s =>
      rw [List.length_cons] at hn
      cases hc : isWordChar c with
      | true =>
        have hdrop : countDoubles doubles (c :: s) = countDoubles doubles (s.dropWhile isWordChar) := by
          have hrun : ∀ d ∈ c :: s.takeWhile isWordChar, isWordChar d = true :=
            List.forall_mem_cons.mpr ⟨hc, fun d hd => List.mem_takeWhile_imp hd⟩
          have happend := hp.countDoubles_append hrun (s.dropWhile isWordChar)
          rwa [List.cons_append, List.takeWhile_append_dropWhile] at happend
        have hlength := (List.dropWhile_sublist isWordChar (l := s)).length_le
        rw [hp.matchesFrom_of_isWordChar hc, ih _ (by omega) _ rfl, countWords_of_isWordChar words hc, hdrop,
          Nat.add_assoc]
      | false =>
        rw [matchesFrom, hp.foundLength_eq hc, countWords_of_not_isWordChar words hc, hc]
        cases hdouble : beginsDouble doubles (c :: s) with
        | false => exact (ih _ (by omega) s rfl).trans (by rw [countDoubles_of_not_beginsDouble hdouble])
        | true =>
          cases s with
          | nil => exact absurd hdouble Bool.false_ne_true
          | cons d s =>
            rw [beginsDouble] at hdouble
            obtain rfl : c = d := by simpa using (Bool.and_eq_true_iff.mp hdouble).1
            rw [List.length_cons] at hn
            have hcount : countDoubles doubles (c :: c :: s) = countDoubles doubles s + 1 := by
              rw [countDoubles, hdouble, if_pos rfl]
            have hrest : matchesFrom doubles words 1 false (c :: s) = countDoubles doubles s + countWords words s := by
              rw [matchesFrom, hc, ih _ (by omega) s rfl]
            rw [hcount, countWords_of_not_isWordChar words hc, Nat.add_right_comm, ← hrest]
            rfl

/-! ## Control flow and Boolean operators -/

/-- Of no characters none is doubled. -/
theorem countDoubles_nil (s : List Char) : countDoubles [] s = 0 := by
  fun_induction countDoubles [] s with
  | case1 a b s h => simp at h
  | case2 a b s h ih => exact ih
  | case3 => rfl

/-- Another character is passed over. -/
theorem countDouble_of_ne (h : d ≠ c) (s : List Char) : countDouble c (d :: s) = countDouble c s := by
  cases s <;> simp [countDouble, h]

/-- A doubled character counts once. -/
theorem countDouble_self (c : Char) (s : List Char) : countDouble c (c :: c :: s) = countDouble c s + 1 := by
  simp [countDouble]

/-- Both doubled operators are counted apart. -/
theorem countDoubles_operators (s : List Char) : countDoubles ['&', '|'] s = countDouble '&' s + countDouble '|' s := by
  fun_induction countDoubles ['&', '|'] s with
  | case1 a b s h ih =>
    obtain ⟨rfl, rfl | rfl⟩ : a = b ∧ (a = '&' ∨ a = '|') := by simpa using h
    · rw [ih, countDouble_self, countDouble_of_ne (c := '|') (by decide), countDouble_of_ne (c := '|') (by decide),
        Nat.add_right_comm]
    · rw [ih, countDouble_self, countDouble_of_ne (c := '&') (by decide), countDouble_of_ne (c := '&') (by decide),
        Nat.add_assoc]
  | case2 a b s h ih =>
    have hne : ∀ c ∈ ['&', '|'], ¬(a = c ∧ b = c) := by
      rintro c hc ⟨rfl, rfl⟩
      simp [hc] at h
    have hstep : ∀ c ∈ ['&', '|'], countDouble c (a :: b :: s) = countDouble c (b :: s) := by
      intro c hc
      rw [countDouble, if_neg (by simpa using hne c hc)]
    rw [ih, hstep '&' (by simp), hstep '|' (by simp)]
  | case3 s h =>
    match s with
    | [] => rfl
    | [a] => rfl
    | a :: b :: s => exact absurd rfl (h a b s)

/-- Whether doubles and words make up a pattern can be checked character by character. -/
theorem IsPattern.of_all (hdoubles : (doubles.all fun c => !isWordChar c) = true)
    (hwords : (words.all fun w => w != "" && w.toList.all isWordChar) = true) : IsPattern doubles words := by
  simp only [List.all_eq_true, Bool.and_eq_true, bne_iff_ne, Bool.not_eq_true'] at hdoubles hwords
  exact ⟨hdoubles, fun w hw => (hwords w hw).1, fun w hw => (hwords w hw).2⟩

/-- The words of control flow are a pattern. -/
theorem isPattern_flowWords : IsPattern [] flowWords :=
  .of_all (by decide) (by decide)

/-- So are the words of nesting. -/
theorem isPattern_nestingWords : IsPattern [] nestingWords :=
  .of_all (by decide) (by decide)

/-- So are the Boolean operators. -/
theorem isPattern_operators : IsPattern ['&', '|'] ["and", "or"] :=
  .of_all (by decide) (by decide)

/-- Matches of words are the words counted. -/
theorem countMatches_eq_countWords (hp : IsPattern [] words) (line : String) :
    countMatches [] words line = countWords words line.toList := by
  rw [countMatches, hp.matchesFrom_eq, countDoubles_nil, Nat.zero_add]

/-- Matches of operators are the operators counted. -/
theorem countMatches_eq_countOperators (line : String) :
    countMatches ['&', '|'] ["and", "or"] line = countOperators line.toList := by
  rw [countMatches, isPattern_operators.matchesFrom_eq, countDoubles_operators, countOperators]

end RepoAtlas.Metric
