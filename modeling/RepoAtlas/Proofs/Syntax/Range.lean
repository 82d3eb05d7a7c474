import RepoAtlas.Proofs.Syntax.Walk
import RepoAtlas.Proofs.Text.Line
import RepoAtlas.Syntax.Source

/-!
# Ranges and the lines they stand on

Rows count line feeds, while lines are cut at every line end, so a node stands among the lines at its row and
the number of other line ends before it. Its lines show a text inside it exactly if they reach that place, or it
stands there by chance.
-/

namespace RepoAtlas.Syntax

variable {s : Source} {root c d n : Cursor}

/-- Rows go up with offsets. -/
theorem rowAt_mono (chars : List Char) {a b : Nat} (h : a ≤ b) : rowAt chars a ≤ rowAt chars b := by
  induction chars generalizing a b with
  | nil => simp [rowAt]
  | cons x chars ih =>
    cases a with
    | zero => simp [rowAt]
    | succ a =>
      cases b with
      | zero => omega
      | succ b =>
        have hrest := ih (Nat.sub_le_sub_right h x.utf8Size)
        simp only [rowAt]
        omega

/-- A node whose range lies in that of another. -/
def Inside (inner outer : Cursor) : Prop :=
  outer.tree.start ≤ inner.tree.start ∧ inner.tree.start ≤ inner.tree.stop ∧
    inner.tree.stop ≤ outer.tree.stop

instance (inner outer : Cursor) : Decidable (Inside inner outer) :=
  inferInstanceAs (Decidable (_ ∧ _ ∧ _))

/-- What is inside something inside is inside. -/
theorem Inside.trans {c d e : Cursor} (h : Inside c d) (h' : Inside d e) : Inside c e :=
  ⟨h'.1.trans h.1, h.2.1, h.2.2.trans h'.2.2⟩

/-- What is inside begins on a line of the whole. -/
theorem Inside.startLine_mem {s : Source} {inner outer : Cursor} (h : Inside inner outer) :
    s.startLine outer ≤ s.startLine inner ∧ s.startLine inner ≤ s.endLine outer := by
  obtain ⟨hstart, hrange, hstop⟩ := h
  exact ⟨Nat.add_le_add_right (rowAt_mono s.chars hstart) 1,
    Nat.add_le_add_right (rowAt_mono s.chars (hrange.trans hstop)) 1⟩

/-- A tree in which the range of every node lies in that of its parent. -/
def Nested (root : Cursor) : Prop :=
  ∀ c ∈ root.preorder, ∀ d ∈ c.children, Inside d c

instance (root : Cursor) : Decidable (Nested root) :=
  inferInstanceAs (Decidable (∀ c ∈ root.preorder, ∀ d ∈ c.children, Inside d c))

/-- A node that is reached from another one by going down. -/
inductive Below : Cursor → Cursor → Prop
  | child {c d : Cursor} : d ∈ c.children → Below d c
  | step {c d n : Cursor} : d ∈ c.children → Below n d → Below n c

/-- A part is below. -/
theorem below_of_child? {kind : String} (h : c.child? kind = some d) : Below d c :=
  .child (List.mem_of_find?_eq_some h)

/-- In a nested tree whatever is below a node lies inside it. -/
theorem Nested.inside (hroot : Nested root) (hc : c ∈ root.preorder) (h : Below n c) : Inside n c := by
  induction h with
  | child hd => exact hroot _ hc _ hd
  | step hd _ ih => exact (ih (Cursor.mem_preorder_of_mem_children hc hd)).trans (hroot _ hc _ hd)

/-- The number of UTF-8 bytes of a text. -/
def byteSize : List Char → Nat
  | [] => 0
  | c :: chars => c.utf8Size + byteSize chars

/-- The first character adds its bytes. -/
theorem byteSize_cons (c : Char) (chars : List Char) : byteSize (c :: chars) = c.utf8Size + byteSize chars :=
  rfl

/-- The bytes of two texts add up. -/
theorem byteSize_append (u v : List Char) : byteSize (u ++ v) = byteSize u + byteSize v := by
  induction u with
  | nil => exact (Nat.zero_add (byteSize v)).symm
  | cons c u ih => rw [List.cons_append, byteSize_cons, byteSize_cons, ih, Nat.add_assoc]

/-- The number of line ends other than line feeds that begin before a byte offset. -/
def straysBefore : List Char → Nat → Nat
  | [], _ => 0
  | _, 0 => 0
  | c :: s, n + 1 =>
    (if Text.breaks c s && c != '\n' then 1 else 0) + straysBefore s (n + 1 - c.utf8Size)

/-- A first line feed adds a row. -/
theorem rowAt_cons (c : Char) (s : List Char) (n : Nat) :
    rowAt (c :: s) (c.utf8Size + n) = (if c = '\n' then 1 else 0) + rowAt s n := by
  obtain ⟨m, hm⟩ := Nat.exists_eq_add_of_lt c.utf8Size_pos
  rw [show c.utf8Size + n = m + n + 1 by omega, rowAt, show m + n + 1 - c.utf8Size = n by omega]

/-- A first line end that is no line feed adds a stray. -/
theorem straysBefore_cons (c : Char) (s : List Char) (n : Nat) :
    straysBefore (c :: s) (c.utf8Size + n) = (if Text.breaks c s && c != '\n' then 1 else 0) + straysBefore s n := by
  obtain ⟨m, hm⟩ := Nat.exists_eq_add_of_lt c.utf8Size_pos
  rw [show c.utf8Size + n = m + n + 1 by omega, straysBefore, show m + n + 1 - c.utf8Size = n by omega]

/-- Behind a beginning of a text, rows and other line ends together count the lines that have ended. -/
theorem rowAt_add_straysBefore (u after : List Char) :
    rowAt (u ++ after) (byteSize u) + straysBefore (u ++ after) (byteSize u) = Text.breaksIn after u := by
  induction u with
  | nil => cases after <;> rfl
  | cons c u ih =>
    rw [byteSize_cons, List.cons_append, rowAt_cons, straysBefore_cons, Text.breaksIn, ← ih]
    by_cases hc : c = '\n'
    · subst hc
      have hbreaks : Text.breaks '\n' (u ++ after) = true := rfl
      simp only [hbreaks, bne_self_eq_false, Bool.and_false, Bool.false_eq_true, if_true, if_false]
      omega
    · simp only [hc, if_false, bne_iff_ne.mpr hc, Bool.and_true]
      omega

/-- The rows behind a beginning of a text are its line feeds. -/
theorem rowAt_byteSize (u after : List Char) : rowAt (u ++ after) (byteSize u) = u.count '\n' := by
  induction u with
  | nil => cases after <;> rfl
  | cons c u ih =>
    rw [byteSize_cons, List.cons_append, rowAt_cons, List.count_cons, ← ih, Nat.add_comm]
    simp

/-- What is dropped is a beginning of as many bytes. -/
theorem exists_of_dropBytes {s t : List Char} {n : Nat} (h : dropBytes s n = some t) (hne : t ≠ []) :
    ∃ u, s = u ++ t ∧ byteSize u = n := by
  fun_induction dropBytes s n with
  | case1 s => exact ⟨[], Option.some.inj h, rfl⟩
  | case2 n hn => exact absurd (Option.some.inj h).symm hne
  | case3 c s n hsize ih =>
    obtain ⟨u, rfl, hu⟩ := ih h
    refine ⟨c :: u, rfl, ?_⟩
    rw [byteSize_cons]
    omega
  | case4 => cases h

/-- What is taken is a beginning of at most as many bytes. -/
theorem exists_of_takeBytes {s t : List Char} {n : Nat} (h : takeBytes s n = some t) :
    (∃ v, s = t ++ v) ∧ byteSize t ≤ n := by
  fun_induction takeBytes s n generalizing t with
  | case1 s =>
    cases h
    exact ⟨⟨s, rfl⟩, Nat.le_refl 0⟩
  | case2 n hn =>
    cases h
    exact ⟨⟨[], rfl⟩, Nat.zero_le n⟩
  | case3 c s n hsize ih =>
    obtain ⟨t, ht, rfl⟩ := Option.map_eq_some_iff.mp h
    obtain ⟨⟨v, rfl⟩, hu⟩ := ih ht
    refine ⟨⟨v, rfl⟩, ?_⟩
    rw [byteSize_cons]
    omega
  | case4 => cases h

/-- A text between two offsets stands behind the bytes before the first, and ends before the second. -/
theorem exists_of_slice {chars t : List Char} {start stop : Nat} (h : slice chars start stop = some t)
    (hne : t ≠ []) : ∃ u v, chars = u ++ (t ++ v) ∧ byteSize u = start ∧ byteSize (u ++ t) ≤ stop := by
  rw [slice] at h
  split at h
  · exact absurd (Option.some.inj h).symm hne
  · obtain ⟨rest, hrest, ht⟩ := Option.bind_eq_some_iff.mp h
    obtain ⟨⟨v, rfl⟩, hsize⟩ := exists_of_takeBytes ht
    obtain ⟨u, rfl, hu⟩ := exists_of_dropBytes hrest (List.append_ne_nil_of_left_ne_nil hne v)
    refine ⟨u, v, rfl, hu, ?_⟩
    rw [byteSize_append]
    omega

namespace Source

/-- The place among the lines of a text where a node begins. -/
def lineIndex (s : Source) (c : Cursor) : Nat :=
  s.startRow c + straysBefore s.chars c.tree.start

variable {t text path : String} {above : Option String}

/-- The text of a node is the slice of its range. -/
theorem slice_of_text (h : s.text n = .ok t) : slice s.chars n.tree.start n.tree.stop = some t.toList := by
  rw [Source.text, textOf] at h
  split at h
  · rename_i cs hcs
    rw [hcs, ← Except.ok.inj h, String.toList_ofList]
  · exact absurd h (by simp)

/-- The text of a node stands where the node begins. -/
theorem exists_of_text (h : s.text n = .ok t) (hne : t ≠ "") :
    ∃ u v, s.chars = u ++ (t.toList ++ v) ∧ byteSize u = n.tree.start ∧
      byteSize (u ++ t.toList) ≤ n.tree.stop :=
  exists_of_slice (slice_of_text h) (by simpa using hne)

/-- As many lines have ended before the text of a node as its place says. -/
theorem breaksIn_eq_lineIndex {u v : List Char} (hchars : s.chars = u ++ (t.toList ++ v))
    (hstart : byteSize u = n.tree.start) : Text.breaksIn (t.toList ++ v) u = s.lineIndex n := by
  rw [lineIndex, startRow, hchars, ← hstart, rowAt_add_straysBefore]

/-- Where only line feeds end lines before a node, the node reaches the last line of its text. -/
theorem lineIndex_add_count_le (h : s.text n = .ok t) (hne : t ≠ "")
    (hstrays : straysBefore s.chars n.tree.start = 0) : s.lineIndex n + t.toList.count '\n' ≤ s.endRow n := by
  obtain ⟨u, v, hchars, hstart, hstop⟩ := exists_of_text h hne
  have hend : rowAt s.chars (byteSize (u ++ t.toList)) = (u ++ t.toList).count '\n' := by
    rw [hchars, ← List.append_assoc, rowAt_byteSize]
  have hbegin : rowAt s.chars (byteSize u) = u.count '\n' := by rw [hchars, rowAt_byteSize]
  calc
    s.lineIndex n + t.toList.count '\n' = u.count '\n' + t.toList.count '\n' := by
      rw [lineIndex, hstrays, startRow, ← hstart, hbegin, Nat.add_zero]
    _ = rowAt s.chars (byteSize (u ++ t.toList)) := by rw [hend, List.count_append]
    _ ≤ s.endRow n := rowAt_mono s.chars hstop

/-- The lines of a node show a text inside it that their rows reach. -/
theorem has_nodeLines_of_reach (hinside : Inside n c) (h : (Source.of text path above).text n = .ok t)
    (hends : ∀ x ∈ t.toList, Text.endsLine x = true → x = '\n') (hlast : t.toList.getLast? ≠ some '\n')
    (hne : t ≠ "")
    (hreach : (Source.of text path above).lineIndex n + t.toList.count '\n' ≤
      (Source.of text path above).endRow c) :
    Text.has ((Source.of text path above).nodeLines c) t = true := by
  obtain ⟨u, v, hchars, hstart, -⟩ := exists_of_text h hne
  have hplace := breaksIn_eq_lineIndex hchars hstart
  have hrow : (Source.of text path above).startRow c ≤ (Source.of text path above).lineIndex n :=
    (rowAt_mono _ hinside.1).trans (Nat.le_add_right _ _)
  exact Text.has_excerpt_of_piece hchars hends hlast hne (by rw [hplace]; exact hrow)
    (by rw [hplace]; exact Nat.lt_succ_of_le hreach)

/-- The lines of a node show the names whose line they reach, and those that stand on an earlier one. -/
theorem has_nodeLines_iff (hinside : Inside n c) (h : (Source.of text path above).text n = .ok t)
    (hne : t ≠ "") (hfeed : '\n' ∉ t.toList) :
    Text.has ((Source.of text path above).nodeLines c) t = true ↔
      (∀ x ∈ t.toList, Text.endsLine x = false) ∧
      ((Source.of text path above).lineIndex n ≤ (Source.of text path above).endRow c ∨
        ∃ i l, (Source.of text path above).startRow c ≤ i ∧ i ≤ (Source.of text path above).endRow c ∧
          i < (Source.of text path above).lineIndex n ∧
          (Source.of text path above).lines[i]? = some l ∧ Text.has l t = true) := by
  constructor
  · intro hhas
    refine ⟨fun x hx => Text.endsLine_of_has_excerpt hhas hx fun heq => hfeed (heq ▸ hx), ?_⟩
    obtain ⟨i, l, hfirst, hlast, hl, hlhas⟩ := (Text.has_excerpt_iff hfeed hne).mp hhas
    rcases Nat.lt_or_ge i ((Source.of text path above).lineIndex n) with hi | hi
    · exact Or.inr ⟨i, l, hfirst, Nat.le_of_lt_succ hlast, hi, hl, hlhas⟩
    · exact Or.inl (hi.trans (Nat.le_of_lt_succ hlast))
  · rintro ⟨hends, hreach | ⟨i, l, hfirst, hlast, -, hl, hlhas⟩⟩
    · refine has_nodeLines_of_reach hinside h (fun x hx hx' => ?_) ?_ hne ?_
      · rw [hends x hx] at hx'
        exact absurd hx' Bool.false_ne_true
      · exact fun heq => hfeed (List.mem_of_getLast? heq)
      · rwa [List.count_eq_zero.mpr hfeed]
    · exact (Text.has_excerpt_iff hfeed hne).mpr ⟨i, l, hfirst, Nat.lt_succ_of_le hlast, hl, hlhas⟩

end Source

end RepoAtlas.Syntax
