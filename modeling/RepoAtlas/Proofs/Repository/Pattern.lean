import RepoAtlas.Command.Settings
import RepoAtlas.Proofs.Text.Glob
import RepoAtlas.Proofs.Text.Line
import RepoAtlas.Proofs.Text.Tidy
import RepoAtlas.Repository.Selection
import RepoAtlas.Text.Word

/-!
# What patterns select

A pattern that is a directory with a slash behind it excludes the paths that begin with the name, as texts. An
option with endings between braces is cut at its commas before braces are looked at, and braces mean nothing in
a pattern.
-/

namespace RepoAtlas

namespace Text

variable {sep : Char}

/-- Nothing is trimmed without the separator. -/
theorem trimEnd_of_not_mem {s : List Char} (h : sep ∉ s) : trimEnd (· = sep) s = s := by
  obtain ⟨n, hn⟩ := exists_replicate_of_trimEnd sep s
  cases n with
  | zero => simpa using hn.symm
  | succ n => exact absurd (hn ▸ by simp) h

/-- A text without the separator begins a text exactly if it begins its first part. -/
theorem begins_iff_of_split {s first piece : String} {rest : List String} (hsplit : split sep s = first :: rest)
    (h : sep ∉ piece.toList) : begins s piece = true ↔ begins first piece = true := by
  have hs : join (String.singleton sep) (first :: rest) = s := by rw [← hsplit, join_split]
  cases rest with
  | nil => rw [← hs, join, String.intercalate_singleton]
  | cons next rest =>
    have hlist : s.toList = first.toList ++ sep :: (join (String.singleton sep) (next :: rest)).toList := by
      rw [← hs, join, String.intercalate_cons_cons]
      simp [join]
    simp only [begins, List.isPrefixOf_iff_prefix, hlist, prefix_append_cons_iff]
    refine or_iff_left ?_
    rintro ⟨more, hpiece, -⟩
    exact h (by simp [hpiece])

end Text

namespace Repository

section

variable {d path name first : String} {rest : List String}

/-- A pattern that ends in its only slash excludes what begins with the name before the slash. -/
theorem excludes_slash_iff (hplain : d.toList.all Text.isPlain) (hslash : '/' ∉ d.toList)
    (hname : '/' ∉ name.toList) : excludes path name (d ++ "/") = true ↔ Text.begins path d = true := by
  have hpattern : (d ++ "/").toList.all Text.isPlain := by simp_all [Text.isPlain]
  have htrim : String.ofList (Text.trimEnd (· = '/') (d ++ "/").toList) = d := by
    rw [String.toList_append, Text.trimEnd_append_of_forall _ (by simp), Text.trimEnd_of_not_mem hslash,
      String.ofList_toList]
  have hends : Text.ends (d ++ "/") "/" = true := by simp [Text.ends]
  -- The other tests hold of no name, or only of paths that begin with the directory.
  have hfree : ∀ x : String, '/' ∉ x.toList → x ≠ d ++ "/" := by
    rintro x hx rfl
    simp at hx
  have hparts : d ++ "/" ∉ Text.split '/' path := fun hmem =>
    hfree _ (Text.not_mem_of_mem_split hmem) rfl
  have hlong : ∀ tail, Text.begins path (d ++ tail) = true → Text.begins path d = true := by
    intro tail h
    rw [Text.begins, List.isPrefixOf_iff_prefix, String.toList_append] at *
    exact (List.prefix_append _ _).trans h
  have hself : path = d ++ "/" → Text.begins path d = true := by
    rintro rfl
    simp [Text.begins]
  simp only [excludes, Bool.or_eq_true, Bool.and_eq_true, decide_eq_true_eq, List.contains_iff_mem,
    Text.globMatches_of_isPlain hpattern, htrim, hends, true_and, hparts, or_false, hfree name hname]
  constructor
  · rintro (((h | h) | h) | h)
    · exact hself h
    · exact h
    · exact hlong ("/" ++ "/") (by rwa [← String.append_assoc])
    · exact hself h
  · exact fun h => Or.inl (Or.inl (Or.inr h))

/-- A pattern for a directory excludes the paths whose first part begins with its name, which are the right
ones exactly where the first part is the name, or begins with it just if a later part is the name. -/
theorem directory_pattern_right_iff (included : List String) (hplain : d.toList.all Text.isPlain)
    (hslash : '/' ∉ d.toList) (hsplit : Text.split '/' path = first :: rest)
    (hdot : Text.begins (Text.afterLast '/' path) "." = false) :
    let s : Selection := { included := included, excluded := [d ++ "/"] }
    (s.isExcluded path (Text.afterLast '/' path) = true ↔ Text.begins first d = true) ∧
    ((s.isExcluded path (Text.afterLast '/' path) = true ↔ d ∈ Text.split '/' path) ↔
      first = d ∨ (Text.begins first d = true ↔ d ∈ rest)) := by
  have hexcluded : ({ included := included, excluded := [d ++ "/"] } : Selection).isExcluded path
      (Text.afterLast '/' path) = true ↔ Text.begins first d = true := by
    rw [Selection.isExcluded, hdot, Bool.false_or, List.any_cons, List.any_nil, Bool.or_false,
      excludes_slash_iff hplain hslash (Text.not_mem_afterLast path), Text.begins_iff_of_split hsplit hslash]
  refine ⟨hexcluded, ?_⟩
  rw [hexcluded, hsplit, List.mem_cons]
  by_cases hfirst : first = d
  · have hself : Text.begins first d = true := by simp [hfirst, Text.begins]
    simp [hfirst ▸ hself, hfirst]
  · simp [hfirst, Ne.symm hfirst]

/-- The pattern for `lib` excludes what is in `library`, and does not exclude a `lib` in another directory. -/
theorem lib_pattern_wrong :
    let s : Selection := { included := [], excluded := ["lib/"] }
    s.isExcluded "library/a.py" "a.py" = true ∧ "lib" ∉ Text.split '/' "library/a.py" ∧
      s.isExcluded "src/lib/a.py" "a.py" = false ∧ "lib" ∈ Text.split '/' "src/lib/a.py" := by
  decide +kernel

/-- The pattern `lib/` excludes what is in `lib`. -/
theorem lib_pattern_right :
    Text.split '/' "lib/a.py" = ["lib", "a.py"] ∧
    (({ included := [], excluded := ["lib/"] } : Selection).isExcluded "lib/a.py" "a.py" = true ↔
      "lib" ∈ Text.split '/' "lib/a.py") := by
  have hsplit : Text.split '/' "lib/a.py" = ["lib", "a.py"] := by decide
  have hname : Text.afterLast '/' "lib/a.py" = "a.py" := by decide
  have hplain : "lib".toList.all Text.isPlain := by decide
  have hright := directory_pattern_right_iff [] hplain (by decide) hsplit (by decide)
  rw [hname] at hright
  exact ⟨hsplit, hright.2.mpr (Or.inl rfl)⟩

end

/-- Whether a character is a letter or a digit of any script. -/
def isLetterOrDigit (c : Char) : Bool :=
  Text.isWordChar c && c != '_'

/-- The option that is meant to include the files with one of the endings. -/
def bracedOption (endings : List String) : String :=
  "*." ++ "\x7b" ++ Text.join "," endings ++ "\x7d"

section

open Command (parsePatterns)

variable {c : Char} {e ending : String} {es : List String}

/-- A letter or digit is not blank. -/
theorem isBlank_of_isLetterOrDigit (h : isLetterOrDigit c = true) : Text.isBlank c = false :=
  Text.isBlank_of_codes (by decide +kernel) h

/-- It differs from every other sign. -/
theorem ne_of_isLetterOrDigit {d : Char} (h : isLetterOrDigit c = true) (hd : isLetterOrDigit d = false) : c ≠ d := by
  rintro rfl
  exact Bool.false_ne_true (hd.symm.trans h)

/-- It is a plain character of a pattern. -/
theorem isPlain_of_isLetterOrDigit (h : isLetterOrDigit c = true) : Text.isPlain c = true := by
  have hstar : c ≠ '*' := ne_of_isLetterOrDigit h (by decide)
  have hmark : c ≠ '?' := ne_of_isLetterOrDigit h (by decide)
  have hbracket : c ≠ '[' := ne_of_isLetterOrDigit h (by decide)
  simp [Text.isPlain, hstar, hmark, hbracket]

/-- The characters of an option after its first ending. -/
theorem mem_closed (hes : ∀ x ∈ es, x.toList.all isLetterOrDigit)
    (hc : c ∈ (Text.join "," es ++ "\x7d").toList) : isLetterOrDigit c = true ∨ c = ',' ∨ c = '\x7d' := by
  rw [String.toList_append, Text.join, String.toList_intercalate, List.mem_append] at hc
  rcases hc with hc | hc
  · rcases Text.mem_intercalate hc with rfl | ⟨part, hpart, hc⟩
    · exact Or.inr (Or.inl rfl)
    · obtain ⟨x, hx, rfl⟩ := List.mem_map.mp hpart
      exact Or.inl (List.all_eq_true.mp (hes x hx) c hc)
  · exact Or.inr (Or.inr (List.mem_singleton.mp hc))

/-- What stands between the star and the first comma, or the end, of an option with braces. -/
def firstBraced (e : String) (es : List String) : String :=
  "\x7b" ++ e ++ if es.isEmpty then "\x7d" else ""

/-- The first of a braced list has letters, digits and braces. -/
theorem mem_firstBraced (he : e.toList.all isLetterOrDigit) (hc : c ∈ (firstBraced e es).toList) :
    isLetterOrDigit c = true ∨ c ∈ ['\x7b', '\x7d'] := by
  have hmem : c = '\x7b' ∨ c ∈ e.toList ∨ c = '\x7d' := by
    cases es <;> simp [firstBraced] at hc <;> tauto
  rcases hmem with h | h | h
  · simp [h]
  · exact Or.inl (List.all_eq_true.mp he c h)
  · simp [h]

/-- The first pattern of a braced option ends at the first comma; the others have no dot and no star. -/
theorem parsePatterns_bracedOption (hes : ∀ x ∈ e :: es, x.toList.all isLetterOrDigit) :
    ∃ others, parsePatterns (bracedOption (e :: es)) = ("*." ++ firstBraced e es) :: others ∧
      ∀ p ∈ others, '.' ∉ p.toList ∧ p.toList.all Text.isPlain := by
  have hfirst : ∀ c ∈ ("*." ++ firstBraced e es).toList, c ≠ ',' ∧ Text.isBlank c = false := by
    have hsigns : ∀ c ∈ ['*', '.', '\x7b', '\x7d'], c ≠ ',' ∧ Text.isBlank c = false := by
      simp only [List.forall_mem_cons, List.not_mem_nil, false_implies, implies_true, and_true]
      decide
    intro c hc
    rcases List.mem_append.mp (String.toList_append ▸ hc) with hc | hc
    · exact hsigns c (List.mem_append_left _ hc)
    · rcases mem_firstBraced (hes e List.mem_cons_self) hc with hletter | hsign
      · exact ⟨ne_of_isLetterOrDigit hletter (by decide), isBlank_of_isLetterOrDigit hletter⟩
      · exact hsigns c (List.mem_append_right ['*', '.'] hsign)
  have hstrip : Text.strip ("*." ++ firstBraced e es) = "*." ++ firstBraced e es := by
    have hblank : ("*." ++ firstBraced e es).toList.any Text.isBlank = false :=
      List.any_eq_false.mpr fun c hc => by simp [(hfirst c hc).2]
    simpa [Text.trimEnd] using Text.strip_append (t := "") hblank (by simp)
  have hcut : Text.split ',' ("*." ++ firstBraced e es) = ["*." ++ firstBraced e es] :=
    Text.split_of_not_mem fun hc => (hfirst _ hc).1 rfl
  cases es with
  | nil =>
    have hoption : bracedOption [e] = "*." ++ firstBraced e [] := by
      simp [← String.toList_inj, bracedOption, firstBraced, Text.join]
    exact ⟨[], by simp [parsePatterns, hoption, hcut, hstrip], by simp⟩
  | cons next more =>
    have hoption : bracedOption (e :: next :: more) =
        "*." ++ firstBraced e (next :: more) ++ "," ++ (Text.join "," (next :: more) ++ "\x7d") := by
      simp [← String.toList_inj, bracedOption, firstBraced, Text.join, String.intercalate_cons_cons]
    have hsplit : Text.split ',' (bracedOption (e :: next :: more)) =
        ("*." ++ firstBraced e (next :: more)) :: Text.split ',' (Text.join "," (next :: more) ++ "\x7d") := by
      rw [hoption]
      exact (Text.split_append_singleton _ _).trans (by rw [hcut, List.singleton_append])
    refine ⟨parsePatterns (Text.join "," (next :: more) ++ "\x7d"), by simp [parsePatterns, hsplit, hstrip], ?_⟩
    intro p hp
    obtain ⟨part, hpart, rfl⟩ := List.mem_map.mp (List.mem_of_mem_filter hp)
    obtain ⟨cs, hcs, rfl⟩ := List.mem_map.mp hpart
    have hchars : ∀ c ∈ (Text.strip (String.ofList cs)).toList, c ≠ '.' ∧ Text.isPlain c = true := by
      intro c hc
      have hmem := (Text.mem_of_mem_cut hcs (by simpa using Text.mem_of_mem_strip hc)).1
      rcases mem_closed (fun x hx => hes x (List.mem_cons_of_mem e hx)) hmem with hletter | rfl | rfl
      · exact ⟨ne_of_isLetterOrDigit hletter (by decide), isPlain_of_isLetterOrDigit hletter⟩
      · decide
      · decide
    exact ⟨fun hdot => (hchars _ hdot).1 rfl, List.all_eq_true.mpr fun c hc => (hchars c hc).2⟩

/-- An option with endings between braces includes a file exactly if its ending is spelled with the opening
brace and the first of the endings, so never one of letters and digits. -/
theorem braced_option_includes_iff (hes : ∀ x ∈ e :: es, x.toList.all isLetterOrDigit)
    (excluded : List String) (way stem : String) (hdot : '.' ∉ ending.toList) :
    let name := stem ++ "." ++ ending
    let s : Selection := { included := parsePatterns (bracedOption (e :: es)), excluded := excluded }
    (s.isIncluded (way ++ name) name = true ↔ ending = firstBraced e es) ∧
    (ending.toList.all isLetterOrDigit → s.isIncluded (way ++ name) name = false ∧
      ((s.isIncluded (way ++ name) name = true ↔ ending ∈ e :: es) ↔ ending ∉ e :: es)) := by
  intro name s
  obtain ⟨others, hpatterns, hothers⟩ := parsePatterns_bracedOption hes
  have hbraced : ∀ c ∈ (firstBraced e es).toList, c ≠ '.' ∧ Text.isPlain c = true := by
    have hsigns : ∀ c ∈ ['\x7b', '\x7d'], c ≠ '.' ∧ Text.isPlain c = true := by
      simp only [List.forall_mem_cons, List.not_mem_nil, false_implies, implies_true, and_true]
      decide
    intro c hc
    rcases mem_firstBraced (hes e List.mem_cons_self) hc with hletter | hsign
    · exact ⟨ne_of_isLetterOrDigit hletter (by decide), isPlain_of_isLetterOrDigit hletter⟩
    · exact hsigns c hsign
  have hfirst : ∀ front : String, Text.globMatches ("*." ++ firstBraced e es) (front ++ "." ++ ending) = true ↔
      ending = firstBraced e es := by
    intro front
    have hplain : ("." ++ firstBraced e es).toList.all Text.isPlain := by
      rw [String.toList_append, List.all_append, Bool.and_eq_true]
      exact ⟨by decide, List.all_eq_true.mpr fun c hc => (hbraced c hc).2⟩
    have hstar := Text.globMatches_star (s := front ++ "." ++ ending) hplain
    have hlist : (front ++ "." ++ ending).toList = front.toList ++ '.' :: ending.toList := by simp
    rw [← String.append_assoc, String.toList_append, hlist] at hstar
    exact hstar.trans ((Text.cons_suffix_iff (fun hc => (hbraced _ hc).1 rfl) hdot _).trans String.toList_inj)
  have hnever : ∀ front : String, ∀ p ∈ others, Text.globMatches p (front ++ "." ++ ending) = false := by
    intro front p hp
    rw [Bool.eq_false_iff, Ne, Text.globMatches_of_isPlain (hothers p hp).2]
    rintro rfl
    exact (hothers _ hp).1 (by simp)
  have hway : way ++ name = way ++ stem ++ "." ++ ending := by simp [name, String.append_assoc]
  have hincluded : s.isIncluded (way ++ name) name = true ↔ ending = firstBraced e es := by
    rw [Selection.isIncluded, hway]
    simp only [s, name, hpatterns, List.isEmpty_cons, Bool.false_or, List.any_cons, Bool.or_eq_true, hfirst, or_self,
      List.any_eq_true, Bool.or_eq_true]
    refine or_iff_left ?_
    rintro ⟨p, hp, h⟩
    simp [hnever _ p hp] at h
  refine ⟨hincluded, fun hletters => ?_⟩
  have hbrace : ending ≠ firstBraced e es := by
    rintro rfl
    have hletter := List.all_eq_true.mp hletters '\x7b' (by simp [firstBraced])
    exact absurd hletter (by decide)
  simp_all

/-- The option for `js` and `jsx` becomes two patterns, and neither of them includes a script. -/
theorem braced_script_missed :
    parsePatterns "*.\x7bjs,jsx\x7d" = ["*.\x7bjs", "jsx\x7d"] ∧
    ({ included := parsePatterns "*.\x7bjs,jsx\x7d", excluded := [] } : Selection).isIncluded "src/app.js"
      "app.js" = false := by
  decide +kernel

/-- The same option includes what is spelled with its first brace. -/
theorem braced_spelling_included :
    bracedOption ["js", "jsx"] = "*.\x7bjs,jsx\x7d" ∧ (∀ x ∈ ["js", "jsx"], x.toList.all isLetterOrDigit) ∧
    ({ included := parsePatterns (bracedOption ["js", "jsx"]), excluded := [] } : Selection).isIncluded
      ("src/" ++ ("app" ++ "." ++ "\x7bjs")) ("app" ++ "." ++ "\x7bjs") = true := by
  have hes : ∀ x ∈ ["js", "jsx"], x.toList.all isLetterOrDigit := by decide +kernel
  have hdot : '.' ∉ "\x7bjs".toList := by decide
  exact ⟨by decide +kernel, hes, (braced_option_includes_iff hes [] "src/" "app" hdot).1.mpr (by decide +kernel)⟩

end

end Repository

end RepoAtlas
