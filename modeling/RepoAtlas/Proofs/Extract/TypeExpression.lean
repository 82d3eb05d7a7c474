import RepoAtlas.Extract.TypeComment
import RepoAtlas.Proofs.Text.Tidy

/-!
# Names in type expressions

Three scans look for names in a type expression: for the first word, for the words between innermost brackets,
and for the first word after each bar. The outer arguments of nested brackets are lost.
-/

namespace RepoAtlas.Extract.TypeComment

open Text

/-- What stands between two type expressions: a bar between alternatives, a comma between arguments. -/
inductive Separator where
  | bar
  | comma

def Separator.text : Separator → List Char
  | .bar => [' ', '|', ' ']
  | .comma => [',', ' ']

/-- The name of a type: a word. -/
structure Name where
  text : List Char
  ne_nil : text ≠ []
  isWord : text.all isWordChar = true

/-- A type expression, or several of them as they stand between angle brackets. -/
inductive TypeExpression where
  | name (n : Name)
  | generic (n : Name) (arguments : TypeExpression)
  | joined (left : TypeExpression) (separator : Separator) (right : TypeExpression)

namespace TypeExpression

def text : TypeExpression → List Char
  | .name n => n.text
  | .generic n e => n.text ++ '<' :: (e.text ++ ['>'])
  | .joined a separator b => a.text ++ (separator.text ++ b.text)

def names : TypeExpression → List (List Char)
  | .name n => [n.text]
  | .generic n e => n.text :: e.names
  | .joined a _ b => a.names ++ b.names

/-- The first name. -/
def head : TypeExpression → Name
  | .name n => n
  | .generic n _ => n
  | .joined a _ _ => a.head

/-- The names that follow a bar. -/
def afterBars : TypeExpression → List (List Char)
  | .name _ => []
  | .generic _ e => e.afterBars
  | .joined a .bar b => a.afterBars ++ b.head.text :: b.afterBars
  | .joined a .comma b => a.afterBars ++ b.afterBars

/-- Whether there are no arguments. -/
def isFlat : TypeExpression → Bool
  | .name _ => true
  | .generic _ _ => false
  | .joined a _ b => a.isFlat && b.isFlat

/-- The names among arguments that have no arguments themselves. -/
def innermost : TypeExpression → List (List Char)
  | .name _ => []
  | .generic _ e => if e.isFlat then e.names else e.innermost
  | .joined a _ b => a.innermost ++ b.innermost

/-- The names that the scans come upon. -/
def namesRead (e : TypeExpression) : List (List Char) :=
  e.head.text :: (e.afterBars ++ e.innermost)

/-- Whether no arguments have arguments themselves, and commas stand between arguments only. -/
def isShallow : TypeExpression → Bool
  | .name _ => true
  | .generic _ e => e.isFlat
  | .joined a .bar b => a.isShallow && b.isShallow
  | .joined _ .comma _ => false

end TypeExpression

variable {e : TypeExpression} {c d : Char} {s t : List Char}

/-! ### Words -/

/-- A name has word characters only. -/
theorem Name.isWordChar_of_mem (n : Name) : ∀ c ∈ n.text, isWordChar c = true :=
  List.all_eq_true.mp n.isWord

/-- It has no others. -/
theorem Name.not_mem (n : Name) (hc : isWordChar c = false) : c ∉ n.text := fun hmem =>
  Bool.false_ne_true (hc.symm.trans (n.isWordChar_of_mem c hmem))

/-- It has no blanks. -/
theorem Name.solid (n : Name) : ∀ c ∈ n.text, isBlank c = false := by
  have hcodes : ∀ m ∈ blankCodes, isWordChar (Char.ofNat m) = false := by decide +kernel
  exact fun c hc => isBlank_of_codes hcodes (n.isWordChar_of_mem c hc)

/-- A text that does not continue a word. -/
def Stops (s : List Char) : Prop :=
  s.takeWhile isWordChar = []

/-- A beginning of what does not continue a word does not either. -/
theorem Stops.of_append (h : Stops s) (hfirst : t <+: s) : Stops t := by
  obtain ⟨rest, rfl⟩ := hfirst
  cases t with
  | nil => rfl
  | cons c t => by_cases hc : isWordChar c = true <;> simp_all [Stops]

/-- Nor does what begins with another character. -/
theorem stops_cons (hc : isWordChar c = false) (s : List Char) : Stops (c :: s) :=
  List.takeWhile_cons_of_neg (by simp [hc])

/-- Nor does a separator. -/
theorem Separator.stops (separator : Separator) (s : List Char) : Stops (separator.text ++ s) := by
  cases separator <;> exact stops_cons (by decide) _

/-- The first word of a text is the name that it begins with. -/
theorem firstWord_append (n : Name) (hs : Stops s) : firstWord (n.text ++ s) = [n.text] := by
  have htake : (n.text ++ s).takeWhile isWordChar = n.text := by
    rw [List.takeWhile_append_of_pos n.isWordChar_of_mem, hs, List.append_nil]
  obtain ⟨c, cs, hcs⟩ := List.exists_cons_of_ne_nil n.ne_nil
  rw [firstWord, run, htake, hcs]

/-- Word characters are added to the word that was begun. -/
theorem wordRunsFrom_append (ht : ∀ c ∈ t, isWordChar c = true) (word s : List Char) :
    wordRunsFrom word (t ++ s) = wordRunsFrom (t.reverse ++ word) s := by
  induction t generalizing word with
  | nil => rfl
  | cons c t ih =>
    obtain ⟨hc, ht⟩ := List.forall_mem_cons.mp ht
    rw [List.cons_append, wordRunsFrom, if_pos hc, ih ht]
    simp

/-- A name in front is a word of its own. -/
theorem wordRuns_append (n : Name) (hs : Stops s) : wordRuns (n.text ++ s) = n.text :: wordRuns s := by
  rw [wordRuns, wordRunsFrom_append n.isWordChar_of_mem]
  cases s with
  | nil => simp [wordRuns, wordRunsFrom, n.ne_nil]
  | cons c s =>
    have hc : isWordChar c = false := by
      by_contra hword
      simp [Stops, hword] at hs
    simp [wordRuns, wordRunsFrom, hc, n.ne_nil]

/-- A separator has no words. -/
theorem wordRuns_separator (separator : Separator) (s : List Char) : wordRuns (separator.text ++ s) = wordRuns s := by
  have hsigns : isWordChar ' ' = false ∧ isWordChar '|' = false ∧ isWordChar ',' = false := by decide
  cases separator <;> simp [Separator.text, wordRuns, wordRunsFrom, hsigns]

namespace TypeExpression

/-- The words of a flat expression are its names. -/
theorem wordRuns_text (h : e.isFlat = true) (hs : Stops s) : wordRuns (e.text ++ s) = e.names ++ wordRuns s := by
  induction e generalizing s with
  | name n => exact wordRuns_append n hs
  | generic n e ih => cases h
  | joined a separator b iha ihb =>
    obtain ⟨ha, hb⟩ := Bool.and_eq_true_iff.mp h
    rw [text, List.append_assoc, List.append_assoc, iha ha (separator.stops _), wordRuns_separator, ihb hb hs, names,
      List.append_assoc]

/-- An expression begins with its first name, and what follows does not continue it. -/
theorem exists_head (e : TypeExpression) (hs : Stops s) : ∃ rest, e.text ++ s = e.head.text ++ rest ∧ Stops rest := by
  induction e generalizing s with
  | name n => exact ⟨s, rfl, hs⟩
  | generic n e ih => exact ⟨'<' :: (e.text ++ ['>'] ++ s), by simp [text, head], stops_cons (by decide) _⟩
  | joined a separator b iha ihb =>
    obtain ⟨rest, hrest, hstops⟩ := iha (separator.stops (b.text ++ s))
    exact ⟨rest, by simpa [text, head] using hrest, hstops⟩

/-- An expression begins with its first name. -/
theorem exists_head_text (e : TypeExpression) : ∃ rest, e.text = e.head.text ++ rest ∧ Stops rest := by
  simpa using exists_head e (s := []) rfl

end TypeExpression

/-! ### Trimming -/

/-- Behind a name only blanks at the end are taken off. -/
theorem bare_append (n : Name) (s : List Char) : bare (n.text ++ s) = n.text ++ trimEnd isBlank s := by
  have hsolid : (String.ofList n.text).toList.any isBlank = false := by simpa using n.solid
  have hstrip := congrArg String.toList (strip_append (t := String.ofList s) hsolid (by simpa using n.ne_nil))
  simpa [strip, bare] using hstrip

/-- A space in front is taken off. -/
theorem bare_space (s : List Char) : bare (' ' :: s) = bare s := by
  have hblank : isBlank ' ' = true := by decide
  simp [bare, trim, hblank]

/-- An expression is bare. -/
theorem TypeExpression.bare_text (e : TypeExpression) : bare e.text = e.text := by
  have hlast : ∃ front c, e.text = front ++ [c] ∧ isBlank c = false := by
    induction e with
    | name n =>
      obtain ⟨front, c, hc⟩ := (List.eq_nil_or_concat' n.text).resolve_left n.ne_nil
      exact ⟨front, c, hc, n.solid c (by simp [hc])⟩
    | generic n e ih => exact ⟨n.text ++ '<' :: e.text, '>', by simp [text], by decide⟩
    | joined a separator b iha ihb =>
      obtain ⟨front, c, hb, hc⟩ := ihb
      exact ⟨a.text ++ separator.text ++ front, c, by simp [text, hb], hc⟩
  have hstart : e.text.head?.any isBlank = false := by
    obtain ⟨rest, hhead, -⟩ := exists_head_text e
    obtain ⟨d, ds, hd⟩ := List.exists_cons_of_ne_nil e.head.ne_nil
    simp [hhead, hd, e.head.solid d]
  obtain ⟨front, c, htext, hc⟩ := hlast
  have htrimmed : Trimmed (String.ofList e.text) := ⟨by simpa using hstart, by simp [htext, hc]⟩
  simpa [strip, bare] using congrArg String.toList htrimmed.strip_eq

/-! ### Arguments -/

/-- The brackets that hold no others. -/
abbrev inBrackets : Recogniser :=
  bracketed '<' '>' ['<', '>']

/-- A text without brackets. -/
def Plain (s : List Char) : Prop :=
  ∀ c ∈ s, c ≠ '<' ∧ c ≠ '>'

/-- A plain text has no bracket. -/
theorem Plain.not_mem (h : Plain s) : '<' ∉ s := fun hmem =>
  (h '<' hmem).1 rfl

/-- Two plain texts are plain together. -/
theorem Plain.append (hs : Plain s) (ht : Plain t) : Plain (s ++ t) := fun c hc =>
  (List.mem_append.mp hc).elim (hs c) (ht c)

/-- A name is plain. -/
theorem Name.plain (n : Name) : Plain n.text := fun c hc =>
  ⟨fun heq => n.not_mem (by decide) (heq ▸ hc), fun heq => n.not_mem (by decide) (heq ▸ hc)⟩

/-- A separator is plain. -/
theorem Separator.plain (separator : Separator) : Plain separator.text := by
  cases separator <;> simp [Plain, Separator.text]

/-- What was found is passed over. -/
theorem findFrom_length_append (m : Recogniser) (t s : List Char) :
    findFrom m t.length (t ++ s) = findFrom m 0 s := by
  induction t with
  | nil => rfl
  | cons c t ih => exact ih

/-- No brackets are found in a text without any. -/
theorem findFrom_append (ht : '<' ∉ t) (s : List Char) :
    findFrom inBrackets 0 (t ++ s) = findFrom inBrackets 0 s := by
  induction t with
  | nil => rfl
  | cons c t ih =>
    obtain ⟨hc, ht⟩ := not_or.mp (List.mem_cons.not.mp ht)
    have hnone : inBrackets (c :: (t ++ s)) = none := if_neg (Ne.symm hc)
    rw [List.cons_append, findFrom, hnone]
    exact ih ht

/-- What an opening bracket finds depends on the next bracket. -/
theorem findFrom_bracket (ht : Plain t) (hd : d = '<' ∨ d = '>') (s : List Char) :
    findFrom inBrackets 0 ('<' :: (t ++ d :: s)) =
      if t ≠ [] ∧ d = '>' then t :: findFrom inBrackets 0 s else findFrom inBrackets 0 (d :: s) := by
  have hfind : inBrackets ('<' :: (t ++ d :: s)) = if t ≠ [] ∧ d = '>' then some (t, s) else none := by
    have hall : ∀ c ∈ t, (!(['<', '>'] : List Char).contains c) = true := fun c hc => by simp [ht c hc]
    rw [inBrackets, bracketed, if_pos rfl, run, List.takeWhile_append_of_pos hall, List.dropWhile_append_of_pos hall]
    rcases hd with rfl | rfl <;> cases t <;> simp
  rw [findFrom, hfind]
  by_cases hfound : t ≠ [] ∧ d = '>'
  · have hskip : (t ++ d :: s).length - s.length = (t ++ [d]).length := by
      simp
      omega
    have hrest := findFrom_length_append inBrackets (t ++ [d]) s
    rw [List.append_assoc, List.singleton_append] at hrest
    rw [if_pos hfound, if_pos hfound]
    dsimp only
    rw [hskip, hrest]
  · rw [if_neg hfound, if_neg hfound]
    exact findFrom_append ht.not_mem (d :: s)

namespace TypeExpression

/-- A flat expression is plain. -/
theorem plain_text (h : e.isFlat = true) : Plain e.text := by
  induction e with
  | name n => exact n.plain
  | generic n e ih => cases h
  | joined a separator b iha ihb =>
    obtain ⟨ha, hb⟩ := Bool.and_eq_true_iff.mp h
    exact (iha ha).append (separator.plain.append (ihb hb))

/-- The first bracket of an expression is an opening one. -/
theorem exists_bracket (h : e.isFlat = false) : ∃ front rest, e.text = front ++ '<' :: rest ∧ Plain front := by
  induction e with
  | name n => cases h
  | generic n e ih => exact ⟨n.text, e.text ++ ['>'], rfl, n.plain⟩
  | joined a separator b iha ihb =>
    cases ha : a.isFlat with
    | false =>
      obtain ⟨front, rest, htext, hfront⟩ := iha ha
      exact ⟨front, rest ++ (separator.text ++ b.text), by simp [text, htext], hfront⟩
    | true =>
      obtain ⟨front, rest, htext, hfront⟩ := ihb (by simpa [isFlat, ha] using h)
      exact ⟨a.text ++ (separator.text ++ front), rest, by simp [text, htext],
        (plain_text ha).append (separator.plain.append hfront)⟩

/-- The words between brackets that hold no others are the innermost arguments. -/
theorem arguments_text (e : TypeExpression) (s : List Char) :
    (findFrom inBrackets 0 (e.text ++ s)).flatMap wordRuns =
      e.innermost ++ (findFrom inBrackets 0 s).flatMap wordRuns := by
  induction e generalizing s with
  | name n =>
    rw [text, findFrom_append n.plain.not_mem]
    rfl
  | generic n e ih =>
    have hshape : (generic n e).text ++ s = n.text ++ '<' :: (e.text ++ '>' :: s) := by simp [text]
    rw [hshape, findFrom_append n.plain.not_mem, innermost]
    cases hflat : e.isFlat with
    | true =>
      have hne : e.text ≠ [] := by
        obtain ⟨rest, htext, -⟩ := exists_head_text e
        simp [htext, e.head.ne_nil]
      have hwords : wordRuns e.text = e.names := by
        simpa [wordRuns, wordRunsFrom] using wordRuns_text hflat (s := []) rfl
      rw [findFrom_bracket (plain_text hflat) (Or.inr rfl), if_pos ⟨hne, rfl⟩, List.flatMap_cons, hwords]
      rfl
    | false =>
      -- The next bracket is another opening one, so nothing is found here.
      obtain ⟨front, rest, htext, hfront⟩ := exists_bracket hflat
      have hinner : findFrom inBrackets 0 ('<' :: (e.text ++ '>' :: s)) =
          findFrom inBrackets 0 (e.text ++ '>' :: s) := by
        rw [htext, List.append_assoc, List.cons_append, findFrom_bracket hfront (Or.inl rfl),
          findFrom_append hfront.not_mem]
        simp
      have hclose : findFrom inBrackets 0 ('>' :: s) = findFrom inBrackets 0 s :=
        findFrom_append (t := ['>']) (by decide) s
      rw [hinner, ih, hclose]
      rfl
  | joined a separator b iha ihb =>
    rw [text, List.append_assoc, List.append_assoc, iha, findFrom_append separator.plain.not_mem, ihb, innermost,
      List.append_assoc]

end TypeExpression

/-! ### Alternatives -/

/-- The first words of some parts of a text. -/
def firstWords (parts : List (List Char)) : List (List Char) :=
  parts.flatMap fun part => firstWord (bare part)

/-- A text without a bar belongs to the first part. -/
theorem cut_append (ht : '|' ∉ t) (s : List Char) :
    ∃ first, first <+: s ∧ cut '|' (t ++ s) = (t ++ first) :: (cut '|' s).tail := by
  induction t with
  | nil =>
    induction s with
    | nil => exact ⟨[], List.prefix_rfl, rfl⟩
    | cons c s ih =>
      obtain ⟨first, hfirst, hcut⟩ := ih
      rw [List.nil_append] at hcut
      by_cases hc : c = '|'
      · exact ⟨[], List.nil_prefix, by simp [cut, hc]⟩
      · refine ⟨c :: first, List.cons_prefix_cons.mpr ⟨rfl, hfirst⟩, ?_⟩
        rw [List.nil_append, cut, if_neg hc, hcut]
        rfl
  | cons c t ih =>
    obtain ⟨hc, ht⟩ := not_or.mp (List.mem_cons.not.mp ht)
    obtain ⟨first, hfirst, hcut⟩ := ih ht
    exact ⟨first, hfirst, by simp [cut, Ne.symm hc, hcut]⟩

/-- It does not change the other parts. -/
theorem tail_cut_append (ht : '|' ∉ t) (s : List Char) : (cut '|' (t ++ s)).tail = (cut '|' s).tail := by
  obtain ⟨first, -, hcut⟩ := cut_append ht s
  rw [hcut, List.tail_cons]

/-- A space in front changes no first word. -/
theorem firstWords_space (s : List Char) : firstWords (cut '|' (' ' :: s)) = firstWords (cut '|' s) := by
  obtain ⟨part, rest, hcut⟩ := List.exists_cons_of_ne_nil (cut_ne_nil '|' s)
  simp [firstWords, cut, hcut, bare_space]

namespace TypeExpression

/-- The first word of an expression is its first name. -/
theorem firstWords_text (e : TypeExpression) (hs : Stops s) :
    firstWords (cut '|' (e.text ++ s)) = e.head.text :: firstWords (cut '|' (e.text ++ s)).tail := by
  obtain ⟨rest, htext, hrest⟩ := exists_head e hs
  obtain ⟨first, hfirst, hcut⟩ := cut_append (e.head.not_mem (by decide)) rest
  have hstops : Stops (trimEnd isBlank first) :=
    hrest.of_append ((List.rdropWhile_prefix isBlank first).trans hfirst)
  rw [htext, hcut, firstWords, List.flatMap_cons, bare_append, firstWord_append e.head hstops]
  rfl

/-- The first words of the other parts are the names that follow bars. -/
theorem firstWords_tail (e : TypeExpression) (hs : Stops s) :
    firstWords (cut '|' (e.text ++ s)).tail = e.afterBars ++ firstWords (cut '|' s).tail := by
  induction e generalizing s with
  | name n => exact congrArg firstWords (tail_cut_append (n.not_mem (by decide)) s)
  | generic n e ih =>
    have hshape : (generic n e).text ++ s = (n.text ++ ['<']) ++ (e.text ++ (['>'] ++ s)) := by simp [text]
    rw [hshape, tail_cut_append (by simp [n.not_mem (c := '|') (by decide)]),
      ih (s := ['>'] ++ s) (stops_cons (by decide) s), tail_cut_append (by decide)]
    rfl
  | joined a separator b iha ihb =>
    have hshape : (joined a separator b).text ++ s = a.text ++ (separator.text ++ (b.text ++ s)) := by simp [text]
    rw [hshape, iha (separator.stops _)]
    cases separator with
    | bar =>
      have hbar : firstWords (cut '|' (Separator.bar.text ++ (b.text ++ s))).tail =
          firstWords (cut '|' (b.text ++ s)) := by
        rw [← firstWords_space]
        rfl
      rw [hbar, firstWords_text b hs, ihb hs]
      simp [afterBars]
    | comma =>
      rw [tail_cut_append (by decide), ihb hs]
      simp [afterBars]

/-! ### All names -/

/-- All names of a shallow expression are come upon. -/
theorem names_subset_namesRead (h : e.isShallow = true) : e.names ⊆ e.namesRead := by
  induction e with
  | name n => simp [names, namesRead, head]
  | generic n e ih =>
    have hflat : e.isFlat = true := h
    simp [names, namesRead, head, innermost, hflat]
  | joined a separator b iha ihb =>
    cases separator with
    | comma => cases h
    | bar =>
      obtain ⟨ha, hb⟩ := Bool.and_eq_true_iff.mp h
      intro n hn
      have hread : n ∈ a.namesRead ∨ n ∈ b.namesRead :=
        (List.mem_append.mp hn).imp (fun hn => iha ha hn) fun hn => ihb hb hn
      simp only [namesRead, head, afterBars, innermost, List.mem_cons, List.mem_append] at hread ⊢
      tauto

/-- The types in an expression are the names that are the first, follow a bar or are innermost arguments. -/
theorem mem_typesIn_iff (e : TypeExpression) :
    (∀ w, w ∈ typesIn e.text ↔ w.toList ∈ e.namesRead) ∧
      (e.isShallow = true → ∀ n ∈ e.names, String.ofList n ∈ typesIn e.text) := by
  have hfirst : firstWord e.text = [e.head.text] := by
    obtain ⟨rest, htext, hrest⟩ := exists_head_text e
    rw [htext, firstWord_append e.head hrest]
  have harguments : arguments e.text = e.innermost := by
    simpa [arguments, findAll, findFrom] using arguments_text e []
  have hlater : firstWords (cut '|' e.text).tail = e.afterBars := by
    simpa [firstWords, cut] using firstWords_tail e (s := []) rfl
  have halternatives : alternatives e.text = if '|' ∈ e.text then e.head.text :: e.afterBars else [] := by
    have hwords := firstWords_text e (s := []) rfl
    rw [List.append_nil, hlater] at hwords
    simp only [alternatives, List.contains_iff_mem]
    exact if_congr Iff.rfl hwords rfl
  have hread : ∀ w, w ∈ typesIn e.text ↔ w.toList ∈ e.namesRead := by
    intro w
    have htold : w ∈ typesIn e.text ↔ w.toList ∈ firstWord e.text ++ arguments e.text ++ alternatives e.text := by
      rw [typesIn, bare_text, List.mem_map]
      constructor
      · rintro ⟨x, hx, rfl⟩
        rwa [String.toList_ofList]
      · exact fun hw => ⟨w.toList, hw, String.ofList_toList⟩
    rw [htold, hfirst, harguments, halternatives, namesRead]
    by_cases hbar : '|' ∈ e.text
    · simp [hbar]
      tauto
    · have hnone : e.afterBars = [] := by
        simpa [firstWords, cut_of_not_mem hbar] using hlater.symm
      simp [hbar, hnone]
  refine ⟨hread, fun hshallow n hn => (hread _).mpr ?_⟩
  rw [String.toList_ofList]
  exact names_subset_namesRead hshallow hn

/-- A result with two alternatives in brackets, and a third one outside of them. -/
def alternativeResult : TypeExpression :=
  .joined (.generic ⟨"Promise".toList, by decide, by decide⟩
    (.joined (.name ⟨['A'], by decide, by decide⟩) .bar (.name ⟨['B'], by decide, by decide⟩))) .bar
    (.name ⟨['C'], by decide, by decide⟩)

/-- All names of this result are read. -/
theorem alternativeResult_read :
    alternativeResult.text = "Promise<A | B> | C".toList ∧
      ∀ n ∈ alternativeResult.names, String.ofList n ∈ typesIn alternativeResult.text :=
  ⟨by decide +kernel, (mem_typesIn_iff alternativeResult).2 (by decide)⟩

/-- An argument that follows another one and has an argument itself. -/
def nestedArgument : TypeExpression :=
  .generic ⟨"Map".toList, by decide, by decide⟩ (.joined (.name ⟨"string".toList, by decide, by decide⟩) .comma
    (.generic ⟨"Array".toList, by decide, by decide⟩ (.name ⟨"Foo".toList, by decide, by decide⟩)))

/-- Arguments are lost where one of them has arguments itself. -/
theorem nestedArgument_unread :
    nestedArgument.text = "Map<string, Array<Foo>>".toList ∧
      nestedArgument.names.map String.ofList = ["Map", "string", "Array", "Foo"] ∧
      typesIn nestedArgument.text = ["Map", "Foo"] := by
  decide +kernel

end TypeExpression

end RepoAtlas.Extract.TypeComment
