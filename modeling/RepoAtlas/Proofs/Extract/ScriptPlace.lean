import RepoAtlas.Proofs.Extract.Front
import RepoAtlas.Proofs.Extract.VueReadable
import RepoAtlas.Proofs.Syntax.Range
import RepoAtlas.Proofs.Text.Cutting

/-!
# Where the script of a Vue file stands

A script is analysed as a text of its own, without its first line feed, and what is found is moved down by the
lines before it: to the lines on which it stands in the file.
-/

namespace RepoAtlas.Syntax

variable {c : Char} {chars rest t : List Char} {start stop m : Nat}

/-- The first row is zero. -/
theorem rowAt_zero (chars : List Char) : rowAt chars 0 = 0 := by
  cases chars <;> rfl

/-- Rows go on behind a text. -/
theorem rowAt_append (u v : List Char) (p : Nat) :
    rowAt (u ++ v) (byteSize u + p) = rowAt (u ++ v) (byteSize u) + rowAt v p := by
  rw [rowAt_byteSize]
  induction u with
  | nil => simp [byteSize]
  | cons c u ih =>
    rw [byteSize_cons, Nat.add_assoc, List.cons_append, rowAt_cons, ih, List.count_cons]
    simp only [beq_iff_eq]
    omega

/-- The rows of a text do not depend on what follows it. -/
theorem rowAt_append_of_le {t : List Char} (v : List Char) {p : Nat} (h : p ≤ byteSize t) :
    rowAt (t ++ v) p = rowAt t p := by
  induction t generalizing p with
  | nil =>
    obtain rfl : p = 0 := Nat.le_zero.mp h
    rw [rowAt_zero, rowAt_zero]
  | cons c t ih =>
    cases p with
    | zero => rfl
    | succ p =>
      rw [byteSize_cons] at h
      rw [List.cons_append, rowAt, rowAt, ih (by omega)]

/-- The rows up to a position inside a piece of a text are those before the piece and those in it. -/
theorem rowAt_of_slice (h : slice chars start stop = some t) {p : Nat} (hp : p ≤ byteSize t) :
    rowAt chars (start + p) = rowAt chars start + rowAt t p := by
  by_cases hne : t = []
  · subst hne
    obtain rfl : p = 0 := Nat.le_zero.mp hp
    rw [rowAt_zero, Nat.add_zero, Nat.add_zero]
  · obtain ⟨u, v, rfl, rfl, -⟩ := exists_of_slice h hne
    rw [rowAt_append, rowAt_append_of_le v hp]

/-- Nothing is dropped from nothing. -/
theorem dropBytes_nil (n : Nat) : dropBytes [] n = some [] := by
  cases n <;> rfl

/-- Bytes can be dropped in two steps. -/
theorem dropBytes_add (h : dropBytes chars m = some rest) (n : Nat) : dropBytes chars (m + n) = dropBytes rest n := by
  fun_induction dropBytes chars m with
  | case1 chars => rw [Nat.zero_add, Option.some.inj h]
  | case2 m hm => rw [← Option.some.inj h, dropBytes_nil, dropBytes_nil]
  | case3 c chars m hsize ih =>
    have hsum : m + 1 + n - c.utf8Size = m + 1 - c.utf8Size + n := by omega
    rw [← ih h, ← hsum, Nat.add_right_comm m 1 n, dropBytes, if_pos (by omega)]
  | case4 => cases h

/-- The bytes of a character drop it. -/
theorem dropBytes_utf8Size (c : Char) (chars : List Char) : dropBytes (c :: chars) c.utf8Size = some chars := by
  obtain ⟨m, hm⟩ := Nat.exists_eq_add_of_lt c.utf8Size_pos
  rw [show c.utf8Size = m + 1 by omega, dropBytes, if_pos (by omega), show m + 1 - c.utf8Size = 0 by omega]
  cases chars <;> rfl

/-- No bytes take nothing. -/
theorem takeBytes_zero (chars : List Char) : takeBytes chars 0 = some [] := by
  cases chars <;> rfl

/-- The first character of the bytes taken from a text is the first one of the text. -/
theorem exists_of_takeBytes_cons (h : takeBytes chars m = some (c :: t)) :
    ∃ rest, chars = c :: rest ∧ takeBytes rest (m - c.utf8Size) = some t := by
  cases m with
  | zero => simp [takeBytes_zero] at h
  | succ m =>
    cases chars with
    | nil => simp [takeBytes] at h
    | cons d rest =>
      rw [takeBytes] at h
      split at h
      · obtain ⟨t', ht', heq⟩ := Option.map_eq_some_iff.mp h
        cases heq
        exact ⟨rest, rfl, ht'⟩
      · cases h

/-- A slice without its first character starts behind it. -/
theorem slice_tail (h : slice chars start stop = some (c :: t)) : slice chars (start + c.utf8Size) stop = some t := by
  rw [slice] at h
  split at h
  · exact absurd (Option.some.inj h) (by simp)
  · obtain ⟨rest, hrest, htake⟩ := Option.bind_eq_some_iff.mp h
    obtain ⟨rest, rfl, ht⟩ := exists_of_takeBytes_cons htake
    rw [Nat.sub_sub] at ht
    rw [slice, dropBytes_add hrest, dropBytes_utf8Size, Option.bind_some, ht, ite_eq_right_iff]
    intro hstop
    rw [Nat.sub_eq_zero_of_le hstop, takeBytes_zero] at ht
    exact ht

end RepoAtlas.Syntax

namespace RepoAtlas.Extract.Vue

open Syntax

variable {s : Source} {root element raw : Cursor}

/-- The number of bytes at the beginning of a script that are not handed over. -/
def skipped (text : String) : Nat :=
  if Text.begins text "\n" then 1 else 0

/-- A script is read without a first line feed, and its offset tells so. -/
theorem exists_script (helement : root.child? "script_element" = some element)
    (hraw : lastChild? element "raw_text" = some raw) (h : Readable s element) :
    ∃ text b, s.text raw = .ok text ∧ script? s root = .ok (some b) ∧
      b.text = (Text.withoutStart? text "\n").getD text ∧
      b.offset = if Text.begins text "\n" then s.startRow raw + 1 else s.startRow raw := by
  obtain ⟨text, htext⟩ := exists_of_isOk (readable_of_lastChild? h hraw).text
  rw [script?, helement]
  dsimp only
  rw [hraw]
  dsimp only
  cases htag : lastChild? element "start_tag" with
  | none =>
    rw [htext]
    exact ⟨text, _, rfl, rfl, rfl, rfl⟩
  | some tag =>
    obtain ⟨found, hfound⟩ := exists_of_isOk (isOk_attributes (readable_of_lastChild? h htag))
    dsimp only
    rw [hfound, htext]
    exact ⟨text, _, rfl, rfl, rfl, rfl⟩

/-- What the findings of a file have from its script is moved down by the lines before the script. -/
theorem lines_of_findings {b : Script} {parsers : Parsers} {whole : String} {repository : Option String}
    {f : Findings} (hscript : script? s root = .ok (some b)) (h : findings parsers s whole repository root = .ok f) :
    let own : Findings := if Text.strip b.text = "" then {} else scriptFindings parsers s.path repository b
    (f.components.tail.map fun k => (k.id, k.startLine, k.endLine)) =
        own.components.map (fun c => (c.id, c.startLine + b.offset, c.endLine + b.offset)) ∧
      own.relationships.map (fun r => { r with line := r.line.map (· + (b.offset : Int)) }) <+: f.relationships := by
  intro own
  rcases exists_of_findings h with ⟨-, hnone⟩ | ⟨script, inTemplate, hsome, hrelationships, hcomponents⟩
  · cases hscript.symm.trans hnone
  · cases hscript.symm.trans hsome
    have hmoved : inScript parsers s.path repository (some b) = moved s.path repository b.offset own := by
      by_cases hblank : Text.strip b.text = "" <;> simp [inScript, own, Option.filter, hblank, moved]
    have hplace : ∀ c, ((enriched f.relationships c).id, (enriched f.relationships c).startLine,
        (enriched f.relationships c).endLine) = (c.id, c.startLine, c.endLine) := by
      intro c
      obtain ⟨kind, nodeType, heq⟩ := enriched_eq f.relationships c
      rw [heq]
    rw [hmoved] at hrelationships hcomponents
    constructor
    · rw [hcomponents, List.map_cons, List.tail_cons, List.map_map]
      simp [Function.comp_def, hplace, moved]
    · rw [hrelationships]
      exact List.prefix_append _ _

/-- Every position of a script is on the line of the file that is its line in the script plus the lines before
the script, and what is found in it is moved by as many lines. -/
theorem script_lines_mapped_back (helement : root.child? "script_element" = some element)
    (hraw : lastChild? element "raw_text" = some raw) (h : Readable s element) :
    ∃ text b, s.text raw = .ok text ∧ script? s root = .ok (some b) ∧
      slice s.chars (raw.tree.start + skipped text) raw.tree.stop = some b.text.toList ∧
      (∀ p ≤ byteSize b.text.toList,
        (rowAt b.text.toList p + 1) + b.offset = rowAt s.chars (raw.tree.start + skipped text + p) + 1) ∧
      ∀ parsers whole repository f, findings parsers s whole repository root = .ok f →
        let own : Findings := if Text.strip b.text = "" then {} else scriptFindings parsers s.path repository b
        (f.components.tail.map fun k => (k.id, k.startLine, k.endLine)) =
            own.components.map (fun c => (c.id, c.startLine + b.offset, c.endLine + b.offset)) ∧
          own.relationships.map (fun r => { r with line := r.line.map (· + (b.offset : Int)) }) <+:
            f.relationships := by
  obtain ⟨text, b, htext, hscript, hb, hoffset⟩ := exists_script helement hraw h
  refine ⟨text, b, htext, hscript, and_assoc.mp ⟨?_, fun _ _ _ _ => lines_of_findings hscript⟩⟩
  by_cases hfeed : Text.begins text "\n" = true
  · obtain ⟨rest, rfl⟩ := Text.exists_of_begins hfeed
    rw [Text.withoutStart?_append, Option.getD_some] at hb
    rw [if_pos hfeed] at hoffset
    rw [skipped, if_pos hfeed, hb]
    have hslice : slice s.chars raw.tree.start raw.tree.stop = some ('\n' :: rest.toList) := by
      rw [Source.slice_of_text htext, String.toList_append]
      rfl
    refine ⟨slice_tail hslice, fun p hp => ?_⟩
    -- the line feed that is left out is the one that the offset counts
    have hfirst : rowAt ('\n' :: rest.toList) (1 + p) = 1 + rowAt rest.toList p := rowAt_cons '\n' rest.toList p
    have hrow := rowAt_of_slice hslice (Nat.add_le_add_left hp 1)
    rw [Nat.add_assoc raw.tree.start 1 p, hrow, hfirst, hoffset, Source.startRow]
    omega
  · have hkept : Text.withoutStart? text "\n" = none := if_neg hfeed
    rw [hkept, Option.getD_none] at hb
    rw [if_neg hfeed] at hoffset
    rw [skipped, if_neg hfeed, hb, Nat.add_zero]
    have hslice := Source.slice_of_text htext
    refine ⟨hslice, fun p hp => ?_⟩
    rw [rowAt_of_slice hslice hp, hoffset, Source.startRow]
    omega

/-- The source of a file with a script below a comment. -/
def commented : Source :=
  Source.of "<!--é-->\n<script>\nlet a = 1\n</script>\n" "/r/m.vue" (some "/r")

/-- The tree of that file. -/
def commentedTree : Tree :=
  .node "component" 0 39 [
    .leaf "comment" 0 9,
    .node "script_element" 10 38 [
      .node "start_tag" 10 18 [.sign "<" 10 11, .leaf "tag_name" 11 17, .sign ">" 17 18],
      .leaf "raw_text" 18 29, .node "end_tag" 29 38 [.sign "</" 29 31, .leaf "tag_name" 31 37, .sign ">" 37 38]]]

/-- The script is handed over without its line feed, and begins on the third line. -/
theorem commented_script_mapped_back :
    ∃ element raw text b, (Cursor.ofTree commentedTree).child? "script_element" = some element ∧
      lastChild? element "raw_text" = some raw ∧ Readable commented element ∧
      commented.text raw = .ok text ∧ skipped text = 1 ∧
      script? commented (Cursor.ofTree commentedTree) = .ok (some b) ∧ b.text = "let a = 1\n" ∧
      ∀ p ≤ 10, (rowAt b.text.toList p + 1) + b.offset = rowAt commented.chars (19 + p) + 1 := by
  obtain ⟨element, helement, raw, hraw, hread, hrange, htext⟩ : ∃ element,
      (Cursor.ofTree commentedTree).child? "script_element" = some element ∧ ∃ raw,
      lastChild? element "raw_text" = some raw ∧ Readable commented element ∧
      (raw.tree.start = 18 ∧ raw.tree.stop = 29) ∧ commented.text raw = .ok "\nlet a = 1\n" :=
    ⟨_, rfl, _, rfl, by decide +kernel, by decide +kernel, by decide +kernel⟩
  obtain ⟨text, b, htext', hscript, hslice, hlines, -⟩ := script_lines_mapped_back helement hraw hread
  obtain rfl := Except.ok.inj (htext'.symm.trans htext)
  have hskipped : skipped "\nlet a = 1\n" = 1 := by decide +kernel
  rw [hrange.1, hrange.2, hskipped] at hslice
  have hb : b.text.toList = "let a = 1\n".toList :=
    Option.some.inj (hslice.symm.trans (by decide +kernel))
  refine ⟨element, raw, _, b, helement, hraw, hread, htext, hskipped, hscript, String.toList_inj.mp hb, ?_⟩
  intro p hp
  have hsize : byteSize b.text.toList = 10 := by rw [hb]; decide +kernel
  have hline := hlines p (hsize ▸ hp)
  rwa [hrange.1, hskipped] at hline

end RepoAtlas.Extract.Vue
