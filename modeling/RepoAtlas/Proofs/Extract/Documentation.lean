import RepoAtlas.Extract.GoDeclaration
import RepoAtlas.Proofs.Text.Line
import RepoAtlas.Proofs.Text.Tidy

/-!
# Comments above a declaration

The documentation of a Go declaration is read upwards from the line above it: at most nineteen lines, and never
the first line of the file.
-/

namespace RepoAtlas.Extract.Go

open Syntax

/-- Whether a line is a comment. -/
def isComment (line : String) : Bool :=
  Text.begins (Text.strip line) "//"

/-- What a comment line says. -/
def commentText (line : String) : String :=
  Text.strip (Text.dropFirst (Text.strip line) 2)

/-- The lines directly above a row that are comments, with no comment above them. -/
structure IsBlockAbove (lines : List String) (row : Nat) (block : List String) : Prop where
  nonempty : block ≠ []
  comments : ∀ line ∈ block, isComment line = true
  place : ∃ before after, lines = before ++ block ++ after ∧ row = before.length + block.length ∧
    before.getLast?.any isComment = false

/-- How many lines above a row are read. -/
def readAbove (row : Nat) : Nat :=
  row - 1 - (row - 20)

variable {lines found block : List String} {row : Nat}

/-! ### Reading upwards -/

/-- The lines above a row are read upward. -/
theorem linesAbove_eq (h : row ≤ lines.length) :
    linesAbove lines row = ((lines.take row).reverse.take (readAbove row)).map some := by
  have hlength : (lines.take row).length = row := List.length_take_of_le h
  refine List.ext_getElem? fun i => ?_
  by_cases hi : i < readAbove row
  · have hrow : i < row := by
      unfold readAbove at hi
      omega
    have hline : row - 1 - i < lines.length := by omega
    have hrange : (List.range (row - 1 - (row - 20)))[i]? = some i := List.getElem?_range hi
    rw [linesAbove, List.getElem?_map, hrange, List.getElem?_map, List.getElem?_take_of_lt hi,
      List.getElem?_reverse (by omega), hlength, List.getElem?_take_of_lt (by omega), List.getElem?_eq_getElem hline]
    simp [hline]
  · rw [List.getElem?_eq_none, List.getElem?_eq_none]
    · simp
      omega
    · simpa [linesAbove, readAbove] using hi

/-- Comment lines are put before what was found below them. -/
theorem commentAbove_append {above : List String} (h : ∀ line ∈ above, isComment line = true)
    (rest : List (Option String)) :
    commentAbove found (above.map some ++ rest) = commentAbove ((above.map commentText).reverse ++ found) rest := by
  induction above generalizing found with
  | nil => rfl
  | cons line above ih =>
    have hline : Text.begins (Text.strip line) "//" = true := h line List.mem_cons_self
    rw [List.map_cons, List.cons_append, commentAbove, if_pos hline,
      ih fun l hl => h l (List.mem_cons_of_mem line hl)]
    simp [commentText]

/-- Where a comment was found, a line that is none ends the reading. -/
theorem commentAbove_of_not_isComment (hfound : found ≠ []) {above : List String}
    (h : above.head?.any isComment = false) : commentAbove found (above.map some) = found := by
  cases above with
  | nil => rfl
  | cons line above =>
    have hline : ¬Text.begins (Text.strip line) "//" = true := by simpa [isComment] using h
    rw [List.map_cons, commentAbove, if_neg hline]
    simp [hfound]

/-- Of a block above a row the lines that are read are the documentation. -/
theorem docstring_of_block (h : IsBlockAbove lines row block) :
    docstring lines row =
      Text.join "\n" ((block.drop (block.length - readAbove row)).map commentText) := by
  obtain ⟨hne, hcomments, before, after, rfl, rfl, hbefore⟩ := h
  have htake : (before ++ block ++ after).take (before.length + block.length) = before ++ block := by
    rw [← List.length_append, List.take_left]
  rw [docstring, linesAbove_eq (by simp), htake, List.reverse_append]
  rcases Nat.lt_or_ge (readAbove (before.length + block.length)) block.length with hless | hmore
  · -- The reading ends inside the block.
    have hread : ∀ line ∈ block.reverse.take (readAbove (before.length + block.length)), isComment line = true :=
      fun line hline => hcomments line (List.mem_reverse.mp (List.mem_of_mem_take hline))
    rw [List.take_append_of_le_length (by simpa using hless.le), ← List.append_nil (List.map some _),
      commentAbove_append hread, commentAbove, List.append_nil, ← List.map_reverse, List.take_reverse,
      List.reverse_reverse]
  · -- The line above the block is read, or there is none, and the reading ends.
    have hread : ∀ line ∈ block.reverse, isComment line = true :=
      fun line hline => hcomments line (List.mem_reverse.mp hline)
    have hstop : (before.reverse.take (readAbove (before.length + block.length) - block.length)).head?.any
        isComment = false := by
      rw [List.head?_take]
      split
      · rfl
      · rwa [List.head?_reverse]
    rw [List.take_append, List.take_of_length_le (by simpa using hmore), List.length_reverse, List.map_append,
      commentAbove_append hread, List.append_nil, ← List.map_reverse, List.reverse_reverse,
      commentAbove_of_not_isComment (by simpa using hne) hstop, Nat.sub_eq_zero_of_le hmore, List.drop_zero]

/-! ### Whole blocks -/

/-- What a comment line says is one line. -/
theorem newline_not_mem_commentText {text line : String} (h : line ∈ Text.lines text) :
    '\n' ∉ (commentText line).toList := by
  intro hmem
  have hdrop := Text.mem_of_mem_strip hmem
  rw [Text.dropFirst, String.toList_ofList] at hdrop
  obtain ⟨l, hl, rfl⟩ := List.mem_map.mp h
  have hline := Text.mem_of_mem_strip (List.mem_of_mem_drop hdrop)
  rw [String.toList_ofList] at hline
  exact absurd (Text.endsLine_of_mem_linesFrom (by simp) hl '\n' hline) (by decide)

/-- Texts without line feeds are joined by line feeds to the same text only if they are the same. -/
theorem join_newline_inj {xs ys : List String} (hxs : xs ≠ []) (hys : ys ≠ [])
    (hx : ∀ s ∈ xs, '\n' ∉ s.toList) (hy : ∀ s ∈ ys, '\n' ∉ s.toList) :
    Text.join "\n" xs = Text.join "\n" ys ↔ xs = ys := by
  refine ⟨fun h => ?_, fun h => h ▸ rfl⟩
  have hsplit := congrArg (Text.split '\n') h
  exact (Text.split_join_singleton hxs hx).symm.trans (hsplit.trans (Text.split_join_singleton hys hy))

/-- The last texts are joined like all of them exactly if none is left out, or a single empty one. -/
theorem join_drop_eq_iff {ts : List String} (hne : ts ≠ []) (hts : ∀ t ∈ ts, '\n' ∉ t.toList) (n : Nat) :
    Text.join "\n" (ts.drop (ts.length - n)) = Text.join "\n" ts ↔ ts.length ≤ n ∨ (n = 0 ∧ ts = [""]) := by
  rcases Nat.eq_zero_or_pos n with rfl | hpos
  · have hlength : ¬ts.length ≤ 0 := Nat.not_le.mpr (List.length_pos_iff.mpr hne)
    have hempty : Text.join "\n" (ts.drop (ts.length - 0)) = Text.join "\n" [""] := by
      rw [Nat.sub_zero, List.drop_length]
      rfl
    rw [hempty, join_newline_inj (by simp) hne (by simp) hts, or_iff_right hlength, eq_comm]
    simp
  · have hsome : ts.drop (ts.length - n) ≠ [] := by
      have hlength := List.length_pos_iff.mpr hne
      rw [ne_eq, List.drop_eq_nil_iff]
      omega
    rw [join_newline_inj hsome hne (fun t ht => hts t (List.mem_of_mem_drop ht)) hts]
    constructor
    · intro heq
      have hlength := congrArg List.length heq
      rw [List.length_drop] at hlength
      omega
    · rintro (hle | ⟨hzero, -⟩)
      · rw [Nat.sub_eq_zero_of_le hle, List.drop_zero]
      · omega

/-- A block of comments above a node is its documentation exactly if it begins below the first line and has at
most nineteen lines, or is the first line and says nothing. -/
theorem docstring_eq_block_iff {text path : String} {root : Option String} {c : Cursor} {s : Source}
    (hs : s = Source.of text path root) (h : IsBlockAbove s.lines (s.startRow c) block) :
    (docstring s.lines (s.startRow c) = Text.join "\n" (block.map commentText) ↔
      (block.length < s.startRow c ∧ block.length ≤ 19) ∨
        (s.startRow c = 1 ∧ block.map commentText = [""])) ∧
    docstring s.lines (s.startRow c) =
      Text.join "\n" ((block.drop (block.length - readAbove (s.startRow c))).map commentText) := by
  have hread := docstring_of_block h
  obtain ⟨hne, -, before, after, hlines, hrow, -⟩ := h
  have htexts : ∀ t ∈ block.map commentText, '\n' ∉ t.toList := by
    intro t ht
    obtain ⟨line, hline, rfl⟩ := List.mem_map.mp ht
    have hmem : line ∈ s.lines := by simp [hlines, hline]
    rw [hs] at hmem
    exact newline_not_mem_commentText hmem
  have hjoin := join_drop_eq_iff (by simpa using hne) htexts (readAbove (s.startRow c))
  rw [List.length_map, ← List.map_drop, ← hread] at hjoin
  have hlength : 0 < block.length := List.length_pos_iff.mpr hne
  have hwhole : block.length ≤ readAbove (s.startRow c) ↔ block.length < s.startRow c ∧ block.length ≤ 19 := by
    unfold readAbove
    omega
  have hnone : readAbove (s.startRow c) = 0 ↔ s.startRow c = 1 := by
    unfold readAbove
    omega
  exact ⟨by rw [hjoin, hwhole, hnone], hread⟩

/-- A function with a comment of two lines below the package clause. -/
def commentedSource : Source := Source.of "package m\n\n// F does\n//  much.\nfunc F() \x7b\x7d\n" "m.go" none

/-- The function in that text. -/
def commentedNode : Cursor := Cursor.ofTree ⟨"function_declaration", true, 31, 42, []⟩

/-- A comment below the package clause is read. -/
theorem comment_below_package_read :
    IsBlockAbove commentedSource.lines (commentedSource.startRow commentedNode) ["// F does", "//  much."] ∧
    docstring commentedSource.lines (commentedSource.startRow commentedNode) = "F does\nmuch." := by
  have hblock : IsBlockAbove commentedSource.lines (commentedSource.startRow commentedNode)
      ["// F does", "//  much."] :=
    ⟨by decide, by decide +kernel, ["package m", ""], ["func F() \x7b\x7d"], by decide +kernel, by decide +kernel,
      by decide +kernel⟩
  refine ⟨hblock, (((docstring_eq_block_iff rfl hblock).1).mpr (Or.inl (by decide +kernel))).trans ?_⟩
  decide +kernel

/-- A function on the second line with a comment above it. -/
def headedSource : Source := Source.of "// F\nfunc F() \x7b\x7d\n" "m.go" none

/-- The function in that text. -/
def headedNode : Cursor := Cursor.ofTree ⟨"function_declaration", true, 5, 16, []⟩

/-- The comment above a function on the second line is not read. -/
theorem first_line_unread :
    IsBlockAbove headedSource.lines (headedSource.startRow headedNode) ["// F"] ∧
    docstring headedSource.lines (headedSource.startRow headedNode) ≠ Text.join "\n" (["// F"].map commentText) :=
  ⟨⟨by decide, by decide +kernel, [], ["func F() \x7b\x7d"], by decide +kernel, by decide +kernel, rfl⟩,
    by decide +kernel⟩

end RepoAtlas.Extract.Go
