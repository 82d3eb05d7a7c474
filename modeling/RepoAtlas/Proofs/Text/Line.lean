import Mathlib.Data.List.Infix
import RepoAtlas.Text.Line

/-!
# Pieces of text and the lines they stand on

A piece whose only line ends are line feeds stands on lines in a row, the first of which is at the number of
line ends before the piece.
-/

namespace RepoAtlas.Text

variable {piece s t u v line : List Char} {c sep : Char}

/-- A piece occurs in a text if it is a part of it. -/
theorem occurs_iff_infix : occurs piece s = true ↔ piece <:+: s := by
  induction s with
  | nil => simp [occurs, endings]
  | cons c s ih =>
    have hcons : occurs piece (c :: s) = (piece.isPrefixOf (c :: s) || occurs piece s) := by
      simp only [occurs, endings, List.any_cons]
    rw [hcons, Bool.or_eq_true, ih, List.isPrefixOf_iff_prefix, List.infix_cons_iff]

/-- A piece without the separator does not stand across it. -/
theorem infix_append_cons_iff (hsep : sep ∉ piece) : piece <:+: s ++ sep :: t ↔ piece <:+: s ∨ piece <:+: t := by
  -- Nothing that begins with the separator is part of the piece.
  have hbegin : ∀ r, r <+: sep :: t → sep ∉ r → r = [] := by
    intro r hr hmem
    rcases List.prefix_cons_iff.mp hr with rfl | ⟨r', rfl, -⟩
    · rfl
    · exact absurd List.mem_cons_self hmem
  rw [List.infix_append_iff]
  constructor
  · rintro (h | h | ⟨l, r, rfl, hl, hr⟩)
    · exact Or.inl h
    · rcases List.infix_cons_iff.mp h with h | h
      · exact Or.inl (hbegin piece h hsep ▸ List.nil_infix)
      · exact Or.inr h
    · obtain rfl := hbegin r hr fun hmem => hsep (List.mem_append_right l hmem)
      exact Or.inl (by simpa using hl.isInfix)
  · rintro (h | h)
    · exact Or.inl h
    · exact Or.inr (Or.inl (List.infix_cons h))

/-- A piece without the separator is in joined parts if it is in one of them. -/
theorem infix_intercalate_iff {parts : List (List Char)} (hsep : sep ∉ piece) (hne : piece ≠ []) :
    piece <:+: [sep].intercalate parts ↔ ∃ part ∈ parts, piece <:+: part := by
  induction parts with
  | nil => simp [hne]
  | cons part rest ih =>
    cases rest with
    | nil => simp
    | cons next rest =>
      rw [List.intercalate_cons_cons, List.append_assoc, List.singleton_append, infix_append_cons_iff hsep, ih]
      exact (List.exists_mem_cons_iff _ part (next :: rest)).symm

/-- The characters of joined parts are theirs or the separator. -/
theorem mem_intercalate {parts : List (List Char)} (h : c ∈ [sep].intercalate parts) :
    c = sep ∨ ∃ part ∈ parts, c ∈ part := by
  induction parts with
  | nil => cases h
  | cons part rest ih =>
    cases rest with
    | nil => exact Or.inr ⟨part, List.mem_cons_self, by simpa using h⟩
    | cons next rest =>
      rw [List.intercalate_cons_cons, List.append_assoc, List.singleton_append, List.mem_append, List.mem_cons] at h
      rcases h with h | rfl | h
      · exact Or.inr ⟨part, List.mem_cons_self, h⟩
      · exact Or.inl rfl
      · exact (ih h).imp_right fun ⟨p, hp, hc⟩ => ⟨p, List.mem_cons_of_mem part hp, hc⟩

/-- Whether a character ends a line where `after` follows it. A carriage return before a line feed does
not: the line feed does. -/
def breaks (c : Char) (after : List Char) : Bool :=
  endsLine c && !(c == '\r' && after.head? == some '\n')

/-- The number of lines that end in a text with `after` behind it. -/
def breaksIn (after : List Char) : List Char → Nat
  | [] => 0
  | c :: s => (if breaks c (s ++ after) then 1 else 0) + breaksIn after s

/-- A character ends the line, is left out before a line feed, or goes on with the line. -/
theorem linesFrom_cons (line : List Char) (c : Char) (s : List Char) :
    linesFrom line (c :: s) =
      if breaks c s then line.reverse :: linesFrom [] s
      else if endsLine c then linesFrom line s
      else linesFrom (c :: line) s := by
  by_cases hpair : c = '\r' ∧ s.head? = some '\n'
  · obtain ⟨rfl, hhead⟩ := hpair
    obtain ⟨t, rfl⟩ : ∃ t, s = '\n' :: t := by
      cases s with
      | nil => cases hhead
      | cons d t => exact ⟨t, by rw [Option.some.inj hhead]⟩
    rw [linesFrom, linesFrom]
    · rfl
    · exact fun _ heq => absurd heq (by decide)
  · have hbreaks : breaks c s = endsLine c := by
      simpa [breaks] using fun _ => not_and_or.mp hpair
    rw [linesFrom, hbreaks]
    · by_cases hc : endsLine c <;> simp [hc]
    · exact fun t hc hs => hpair ⟨hc, by rw [hs]; rfl⟩

/-- A line that was begun is the beginning of the first one. -/
theorem exists_first_line (hne : line ≠ []) (s : List Char) :
    ∃ more rest, linesFrom line s = (line.reverse ++ more) :: rest := by
  induction s generalizing line with
  | nil => exact ⟨[], [], by simp [linesFrom, hne]⟩
  | cons c s ih =>
    rw [linesFrom_cons]
    split
    · exact ⟨[], _, by rw [List.append_nil]⟩
    · split
      · exact ih hne
      · obtain ⟨more, rest, h⟩ := ih (List.cons_ne_nil c line)
        exact ⟨c :: more, rest, by rw [h]; simp⟩

/-- A piece without other line ends than line feeds inside it stands on the first lines of what it begins. -/
theorem exists_first_lines (hpiece : ∀ c ∈ piece, endsLine c = true → c = '\n')
    (hlast : piece.getLast? ≠ some '\n') (line s : List Char) (hne : line ≠ [] ∨ piece ≠ []) :
    ∃ ls rest more, linesFrom line (piece ++ s) = ls ++ rest ∧ ls.length = piece.count '\n' + 1 ∧
      ['\n'].intercalate ls = line.reverse ++ piece ++ more := by
  induction piece generalizing line with
  | nil =>
    obtain ⟨more, rest, h⟩ := exists_first_line (hne.resolve_right fun hnil => hnil rfl) s
    exact ⟨[line.reverse ++ more], rest, more, h, rfl, by simp⟩
  | cons c piece ih =>
    have hrest : ∀ d ∈ piece, endsLine d = true → d = '\n' := fun d hd => hpiece d (List.mem_cons_of_mem c hd)
    rw [List.getLast?_cons] at hlast
    by_cases hc : c = '\n'
    · subst hc
      -- The line ends here, and the rest of the piece is not empty.
      have hmore : piece ≠ [] := fun hnil => hlast (by rw [hnil]; rfl)
      obtain ⟨ls, rest, more, hread, hlength, hjoin⟩ := ih hrest
        (fun h => hlast (by rw [h]; rfl)) [] (Or.inr hmore)
      refine ⟨line.reverse :: ls, rest, more, ?_, ?_, ?_⟩
      · rw [List.cons_append, linesFrom_cons, if_pos (by simp [breaks]; decide), hread, List.cons_append]
      · rw [List.length_cons, hlength, List.count_cons_self]
      · rw [List.intercalate_cons_of_ne_nil (List.ne_nil_of_length_eq_add_one hlength), hjoin]
        simp
    · have hends : endsLine c = false := by
        simpa using fun h => hc (hpiece c List.mem_cons_self h)
      have hbreaks : breaks c (piece ++ s) = false := by simp [breaks, hends]
      obtain ⟨ls, rest, more, hread, hlength, hjoin⟩ := ih hrest
        (fun h => hlast (by rw [h]; rfl)) (c :: line) (Or.inl (List.cons_ne_nil c line))
      refine ⟨ls, rest, more, ?_, ?_, ?_⟩
      · rw [List.cons_append, linesFrom_cons, hbreaks, hends]
        exact hread
      · rw [hlength, List.count_cons_of_ne hc]
      · rw [hjoin]
        simp

/-- A piece without other line ends than line feeds inside it stands on lines in a row. -/
theorem exists_lines_of_piece (hpiece : ∀ c ∈ piece, endsLine c = true → c = '\n')
    (hlast : piece.getLast? ≠ some '\n') (hne : piece ≠ []) (line u v : List Char) :
    ∃ before ls after, linesFrom line (u ++ (piece ++ v)) = before ++ (ls ++ after) ∧
      before.length = breaksIn (piece ++ v) u ∧ ls.length = piece.count '\n' + 1 ∧
      piece <:+: ['\n'].intercalate ls := by
  induction u generalizing line with
  | nil =>
    obtain ⟨ls, rest, more, hread, hlength, hjoin⟩ := exists_first_lines hpiece hlast line v (Or.inr hne)
    exact ⟨[], ls, rest, hread, rfl, hlength, ⟨line.reverse, more, hjoin.symm⟩⟩
  | cons c u ih =>
    rw [List.cons_append, linesFrom_cons, breaksIn]
    split
    · obtain ⟨before, ls, after, hread, hplace, hrest⟩ := ih []
      refine ⟨line.reverse :: before, ls, after, by rw [hread, List.cons_append], ?_, hrest⟩
      rw [List.length_cons, hplace, Nat.add_comm]
    · rw [Nat.zero_add]
      split
      · exact ih line
      · exact ih (c :: line)

/-- Joined parts are a beginning of those with more behind. -/
theorem intercalate_prefix_append {ls : List (List Char)} (hne : ls ≠ []) (after : List (List Char)) :
    [sep].intercalate ls <+: [sep].intercalate (ls ++ after) := by
  induction ls with
  | nil => exact absurd rfl hne
  | cons l ls ih =>
    cases ls with
    | nil =>
      cases after with
      | nil => exact List.prefix_refl _
      | cons l' after =>
        rw [List.intercalate_singleton, List.singleton_append, List.intercalate_cons_cons, List.append_assoc]
        exact List.prefix_append _ _
    | cons l' ls =>
      rw [List.cons_append, List.cons_append, List.intercalate_cons_cons, List.intercalate_cons_cons]
      exact (List.prefix_append_right_inj _).mpr (ih (List.cons_ne_nil l' ls))

/-- Joined parts are an end of those with more before. -/
theorem intercalate_suffix_append {ls : List (List Char)} (hne : ls ≠ []) (before : List (List Char)) :
    [sep].intercalate ls <:+ [sep].intercalate (before ++ ls) := by
  induction before with
  | nil => exact List.suffix_refl _
  | cons l before ih =>
    rw [List.cons_append, List.intercalate_cons_of_ne_nil (List.append_ne_nil_of_right_ne_nil before hne)]
    exact ih.trans (List.suffix_append _ _)

/-- Such a piece occurs in an excerpt that shows its lines. -/
theorem has_excerpt_of_piece {text piece : String} {u v : List Char} {first last : Nat}
    (htext : text.toList = u ++ (piece.toList ++ v))
    (hpiece : ∀ c ∈ piece.toList, endsLine c = true → c = '\n')
    (hlast : piece.toList.getLast? ≠ some '\n') (hne : piece ≠ "")
    (hfirst : first - 1 ≤ breaksIn (piece.toList ++ v) u)
    (hshown : breaksIn (piece.toList ++ v) u + piece.toList.count '\n' < last) :
    has (excerpt (lines text) first last) piece = true := by
  have hlist : piece.toList ≠ [] := fun hnil => hne (String.toList_eq_nil_iff.mp hnil)
  obtain ⟨before, ls, after, hread, hplace, hlength, hinfix⟩ :=
    exists_lines_of_piece hpiece hlast hlist [] u v
  have hls : ls ≠ [] := List.ne_nil_of_length_eq_add_one hlength
  -- The excerpt keeps all of these lines, and perhaps some around them.
  have hexcerpt : ((linesFrom [] text.toList).take last).drop (first - 1) =
      before.drop (first - 1) ++ (ls ++ after.take (last - before.length - ls.length)) := by
    rw [htext, hread, List.take_append, List.take_of_length_le (by omega), List.take_append,
      List.take_of_length_le (l := ls) (by omega), List.drop_append_of_le_length (by omega)]
  rw [has, excerpt, join, String.toList_intercalate, occurs_iff_infix, lines, ← List.map_take,
    ← List.map_drop, List.map_map, hexcerpt]
  simp only [Function.comp_def, String.toList_ofList, List.map_id']
  exact hinfix.trans ((intercalate_prefix_append hls _).isInfix.trans
    (intercalate_suffix_append (List.append_ne_nil_of_left_ne_nil hls _) _).isInfix)

/-- No line has a character that ends lines. -/
theorem endsLine_of_mem_linesFrom {l : List Char} (hline : ∀ c ∈ line, endsLine c = false)
    (h : l ∈ linesFrom line s) : ∀ c ∈ l, endsLine c = false := by
  have hreverse : ∀ c ∈ line.reverse, endsLine c = false := fun c hc => hline c (List.mem_reverse.mp hc)
  induction s generalizing line with
  | nil =>
    rw [linesFrom] at h
    split at h
    · cases h
    · exact List.mem_singleton.mp h ▸ hreverse
  | cons c s ih =>
    rw [linesFrom_cons] at h
    split at h
    · rcases List.mem_cons.mp h with rfl | h
      · exact hreverse
      · exact ih (by simp) h (by simp)
    · split at h
      · exact ih hline h hreverse
      · rename_i hc
        have hnext : ∀ d ∈ c :: line, endsLine d = false :=
          List.forall_mem_cons.mpr ⟨by simpa using hc, hline⟩
        exact ih hnext h fun d hd => hnext d (List.mem_reverse.mp hd)

/-- An excerpt has a piece of one line if one of its lines has it. -/
theorem has_excerpt_iff {ls : List String} {piece : String} {first last : Nat} (hpiece : '\n' ∉ piece.toList)
    (hne : piece ≠ "") :
    has (excerpt ls first last) piece = true ↔
      ∃ i l, first - 1 ≤ i ∧ i < last ∧ ls[i]? = some l ∧ has l piece = true := by
  have hlist : piece.toList ≠ [] := fun hnil => hne (String.toList_eq_nil_iff.mp hnil)
  have hmem : ∀ l, l ∈ (ls.take last).drop (first - 1) ↔
      ∃ i, first - 1 ≤ i ∧ i < last ∧ ls[i]? = some l := by
    intro l
    rw [List.mem_iff_getElem?]
    constructor
    · rintro ⟨i, hi⟩
      rw [List.getElem?_drop, List.getElem?_take, Option.ite_none_right_eq_some] at hi
      exact ⟨_, Nat.le_add_right _ i, hi⟩
    · rintro ⟨i, hfirst, hi⟩
      refine ⟨i - (first - 1), ?_⟩
      rw [List.getElem?_drop, List.getElem?_take, Option.ite_none_right_eq_some, Nat.add_sub_cancel' hfirst]
      exact hi
  rw [has, excerpt, join, String.toList_intercalate, occurs_iff_infix]
  change piece.toList <:+: ['\n'].intercalate _ ↔ _
  rw [infix_intercalate_iff hpiece hlist]
  constructor
  · rintro ⟨part, hpart, hinfix⟩
    obtain ⟨l, hl, rfl⟩ := List.mem_map.mp hpart
    obtain ⟨i, hfirst, hlast, hi⟩ := (hmem l).mp hl
    exact ⟨i, l, hfirst, hlast, hi, occurs_iff_infix.mpr hinfix⟩
  · rintro ⟨i, l, hfirst, hlast, hi, hhas⟩
    exact ⟨l.toList, List.mem_map_of_mem ((hmem l).mpr ⟨i, hfirst, hlast, hi⟩), occurs_iff_infix.mp hhas⟩

/-- A piece of an excerpt has no line ends but line feeds. -/
theorem endsLine_of_has_excerpt {text piece : String} {first last : Nat}
    (h : has (excerpt (lines text) first last) piece = true) (hc : c ∈ piece.toList) (hlf : c ≠ '\n') :
    endsLine c = false := by
  rw [has, excerpt, join, String.toList_intercalate, occurs_iff_infix] at h
  have hjoined : c ∈ ['\n'].intercalate _ := h.subset hc
  rcases mem_intercalate hjoined with heq | ⟨part, hpart, hmem⟩
  · exact absurd heq hlf
  · obtain ⟨l, hl, rfl⟩ := List.mem_map.mp hpart
    obtain ⟨cs, hcs, rfl⟩ := List.mem_map.mp (List.mem_of_mem_take (List.mem_of_mem_drop hl))
    rw [String.toList_ofList] at hmem
    exact endsLine_of_mem_linesFrom (by simp) hcs c hmem

end RepoAtlas.Text
