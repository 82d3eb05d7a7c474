import Mathlib
import RepoAtlas.Json.Writer

/-!
# Markers in JSON text

A marker is a piece of text that begins with a less-than sign and is written in JSON as it is. Main result: the places
of a marker in the text of a value, in any letter case, are its places in the texts that the value holds. Nothing is
escaped, and nothing but these texts makes up a marker.
-/

namespace RepoAtlas.Json

/-! ## Places -/

/-- At how many places of some characters a piece stands, whatever the case of their letters. -/
def placesIn (piece : List Char) : List Char → Nat
  | [] => 0
  | c :: s => (if piece.isPrefixOf ((c :: s).map Char.toLower) then 1 else 0) + placesIn piece s

/-- At how many places of a text a piece stands, whatever the case of its letters. -/
def places (piece text : String) : Nat :=
  placesIn piece.toList text.toList

/-- At how many places of several texts a piece stands. -/
def placesAll (piece : String) : List String → Nat
  | [] => 0
  | t :: ts => places piece t + placesAll piece ts

/-- A piece that begins with a less-than sign and is written as it is. -/
structure IsMarker (piece : String) : Prop where
  head : piece.toList.head? = some '<'
  plain : ∀ c ∈ piece.toList, escapeChar c = [c]

mutual
/-- All texts that a value holds, the names of members among them. -/
def allTexts : Json → List String
  | .str s => [s]
  | .arr items => allTextsOfItems items
  | .obj members => allTextsOfMembers members
  | _ => []

/-- The texts of several values. -/
def allTextsOfItems : List Json → List String
  | [] => []
  | j :: items => j.allTexts ++ allTextsOfItems items

/-- The texts of several members. -/
def allTextsOfMembers : List (String × Json) → List String
  | [] => []
  | (name, j) :: members => name :: (j.allTexts ++ allTextsOfMembers members)
end

variable {piece s t : String} {ts us : List String} {c d : Char} {cs ds : List Char}

/-- Occurrences in two lists of texts add up. -/
theorem placesAll_append (piece : String) (ts us : List String) :
    placesAll piece (ts ++ us) = placesAll piece ts + placesAll piece us := by
  induction ts with
  | nil => exact (Nat.zero_add _).symm
  | cons t ts ih => rw [List.cons_append, placesAll, placesAll, ih, Nat.add_assoc]

/-- Texts have no occurrence if none of them has one. -/
theorem placesAll_eq_zero_iff : placesAll piece ts = 0 ↔ ∀ t ∈ ts, places piece t = 0 := by
  induction ts with
  | nil => simp [placesAll]
  | cons t ts ih => rw [placesAll, Nat.add_eq_zero_iff, ih, List.forall_mem_cons]

/-- The texts of an item are among those of all items. -/
theorem mem_allTextsOfItems {items : List Json} {j : Json} (hj : j ∈ items) (ht : t ∈ j.allTexts) :
    t ∈ allTextsOfItems items := by
  induction items with
  | nil => cases hj
  | cons i items ih =>
    rw [allTextsOfItems, List.mem_append]
    exact (List.mem_cons.mp hj).imp (fun heq : j = i => heq ▸ ht) ih

/-- The texts of a member's value are among those of all members. -/
theorem mem_allTextsOfMembers {members : List (String × Json)} {name : String} {j : Json} (hj : (name, j) ∈ members)
    (ht : t ∈ j.allTexts) : t ∈ allTextsOfMembers members := by
  induction members with
  | nil => cases hj
  | cons member members ih =>
    rw [allTextsOfMembers, List.mem_cons, List.mem_append]
    refine .inr ((List.mem_cons.mp hj).imp (fun heq => ?_) ih)
    exact heq ▸ ht

/-! ## Characters that end a piece -/

/-- A character outside of the piece ends what can be part of it. -/
theorem isPrefixOf_append_cons {p : List Char} (hd : d.toLower ∉ p) (cs ds : List Char) :
    p.isPrefixOf ((cs ++ d :: ds).map Char.toLower) = p.isPrefixOf (cs.map Char.toLower) := by
  induction p generalizing cs with
  | nil => rfl
  | cons x p ih =>
    rw [List.mem_cons, not_or] at hd
    cases cs with
    | nil => simp [List.isPrefixOf, Ne.symm hd.1]
    | cons c cs =>
      simp only [List.cons_append, List.map_cons, List.isPrefixOf]
      rw [ih hd.2]

/-- A character that the piece lacks divides its occurrences. -/
theorem placesIn_append_cons {p : List Char} (hne : p ≠ []) (hd : d.toLower ∉ p) (cs ds : List Char) :
    placesIn p (cs ++ d :: ds) = placesIn p cs + placesIn p ds := by
  induction cs with
  | nil =>
    have hfirst : p.isPrefixOf ((d :: ds).map Char.toLower) = false := by
      refine (isPrefixOf_append_cons hd [] ds).trans ?_
      cases p with
      | nil => exact absurd rfl hne
      | cons x p => rfl
    rw [List.nil_append, placesIn, placesIn, hfirst]
    rfl
  | cons c cs ih =>
    rw [List.cons_append, placesIn, placesIn, ih, ← List.cons_append, isPrefixOf_append_cons hd, Nat.add_assoc]

/-! ## Less-than signs -/

/-- No other character becomes a less-than sign in small letters. -/
theorem toLower_eq_lt_iff : c.toLower = '<' ↔ c = '<' := by
  by_cases hupper : c.isUpper = true
  · have halpha : c.toLower.isAlpha = true := by
      rw [Char.isAlpha_toLower_eq_isAlpha, Char.isAlpha, hupper, Bool.true_or]
    refine iff_of_false (fun heq => ?_) (fun heq => ?_)
    · rw [heq] at halpha
      exact absurd halpha (by decide)
    · rw [heq] at hupper
      exact absurd hupper (by decide)
  · rw [Char.toLower_eq_of_not_isUpper hupper]

section

variable (hp : IsMarker piece)
include hp

/-- A marker begins with a less-than sign. -/
theorem IsMarker.exists_eq_cons : ∃ rest, piece.toList = '<' :: rest := by
  cases hcs : piece.toList with
  | nil => exact absurd hp.head (by simp [hcs])
  | cons c rest =>
    have hhead := hp.head
    rw [hcs, List.head?_cons, Option.some.injEq] at hhead
    exact ⟨rest, by rw [hhead]⟩

/-- A marker is no beginning of what begins otherwise. -/
theorem IsMarker.not_isPrefixOf (hc : c ≠ '<') (cs : List Char) :
    piece.toList.isPrefixOf ((c :: cs).map Char.toLower) = false := by
  obtain ⟨rest, hrest⟩ := hp.exists_eq_cons
  have hne : '<' ≠ c.toLower := fun heq => hc (toLower_eq_lt_iff.mp heq.symm)
  rw [hrest, List.map_cons]
  simp [List.isPrefixOf, hne]

/-- A marker does not begin where there is no less-than sign. -/
theorem IsMarker.placesIn_append_of_not_mem (hcs : '<' ∉ cs) (ds : List Char) :
    placesIn piece.toList (cs ++ ds) = placesIn piece.toList ds := by
  induction cs with
  | nil => rfl
  | cons c cs ih =>
    rw [List.mem_cons, not_or] at hcs
    rw [List.cons_append, placesIn, hp.not_isPrefixOf (Ne.symm hcs.1), ih hcs.2]
    exact Nat.zero_add _

/-- A marker does not stand across a character that is escaped. -/
theorem IsMarker.placesIn_append_escaped (hlower : d.toLower = d) (hd : escapeChar d ≠ [d]) (cs ds : List Char) :
    placesIn piece.toList (cs ++ d :: ds) = placesIn piece.toList cs + placesIn piece.toList ds := by
  obtain ⟨rest, hrest⟩ := hp.exists_eq_cons
  refine placesIn_append_cons (hrest ▸ List.cons_ne_nil _ _) (fun hmem => hd ?_) cs ds
  exact hp.plain d (hlower ▸ hmem)

end

/-! ## Escapes -/

/-- A hexadecimal digit is no less-than sign. -/
theorem hexDigit_ne_lt (n : Nat) : hexDigit (n % 16) ≠ '<' := by
  have hall : ∀ m < 16, hexDigit m ≠ '<' := by decide
  exact hall _ (Nat.mod_lt n (by decide))

/-- An escape of a unit has no less-than sign. -/
theorem not_mem_unitEscape (n : Nat) : '<' ∉ unitEscape n := by
  simp [unitEscape, Ne.symm (hexDigit_ne_lt _)]

/-- Printable characters but the quote and the backslash are not escaped. -/
theorem escapeChar_of_printable (hquote : c ≠ '"') (hslash : c ≠ '\\') (hlow : 32 ≤ c.toNat) (hhigh : c.toNat < 127) :
    escapeChar c = [c] := by
  have hcontrol : ∀ d : Char, d.toNat < 32 → c ≠ d := by
    rintro d hd rfl
    omega
  simp [escapeChar, hquote, hslash, hcontrol '\n' (by decide), hcontrol '\r' (by decide), hcontrol '\t' (by decide),
    show c.toNat ≠ 8 by omega, show c.toNat ≠ 12 by omega, hlow, hhigh]

/-- A character that is not written as it is becomes an escape, which holds no less-than sign. -/
theorem escapeChar_of_ne (h : escapeChar c ≠ [c]) : (∃ rest, escapeChar c = '\\' :: rest) ∧ '<' ∉ escapeChar c := by
  generalize he : escapeChar c = e at h
  unfold escapeChar at he
  dsimp only at he
  iterate 7
    split at he
    · exact he ▸ ⟨⟨_, rfl⟩, by decide⟩
  split at he
  · exact absurd he.symm h
  split at he
  · exact he ▸ ⟨⟨_, rfl⟩, not_mem_unitEscape _⟩
  · refine he ▸ ⟨⟨_, rfl⟩, fun hmem => ?_⟩
    exact (List.mem_append.mp hmem).elim (not_mem_unitEscape _) (not_mem_unitEscape _)

/-- What is escaped is no capital. -/
theorem toLower_of_escaped (h : escapeChar c ≠ [c]) : c.toLower = c := by
  refine Char.toLower_eq_of_not_isUpper fun hupper => h ?_
  have hc : 'A'.val ≤ c.val ∧ c.val ≤ 'Z'.val := of_decide_eq_true hupper
  have hge : 65 ≤ c.toNat := UInt32.le_iff_toNat_le.mp hc.1
  have hle : c.toNat ≤ 90 := UInt32.le_iff_toNat_le.mp hc.2
  refine escapeChar_of_printable ?_ ?_ (by omega) (by omega)
  · rintro rfl
    exact absurd hge (by decide)
  · rintro rfl
    exact absurd hle (by decide)

/-- A piece that needs no escapes begins a text with escapes exactly if it begins the text. -/
theorem isPrefixOf_flatMap_escapeChar {p : List Char} (hplain : ∀ x ∈ p, escapeChar x = [x]) (cs : List Char) :
    p.isPrefixOf ((cs.flatMap escapeChar).map Char.toLower) = p.isPrefixOf (cs.map Char.toLower) := by
  induction cs generalizing p with
  | nil => rfl
  | cons c cs ih =>
    cases p with
    | nil => rfl
    | cons x p =>
      rw [List.forall_mem_cons] at hplain
      by_cases hc : escapeChar c = [c]
      · rw [List.flatMap_cons, hc, List.singleton_append, List.map_cons, List.map_cons, List.isPrefixOf,
          List.isPrefixOf, ih hplain.2]
      · obtain ⟨⟨rest, hrest⟩, -⟩ := escapeChar_of_ne hc
        have hslash : x ≠ '\\'.toLower := fun heq => absurd (heq ▸ hplain.1) (by decide)
        have hne : x ≠ c := fun heq => hc (heq ▸ hplain.1)
        rw [List.flatMap_cons, hrest, List.cons_append, List.map_cons, List.map_cons, List.isPrefixOf,
          List.isPrefixOf, toLower_of_escaped hc, beq_false_of_ne hne, beq_false_of_ne hslash]
        rfl

/-- Escaping a text neither makes nor breaks a marker. -/
theorem IsMarker.placesIn_flatMap_escapeChar (hp : IsMarker piece) (cs : List Char) :
    placesIn piece.toList (cs.flatMap escapeChar) = placesIn piece.toList cs := by
  induction cs with
  | nil => rfl
  | cons c cs ih =>
    by_cases hc : escapeChar c = [c]
    · have hprefix := isPrefixOf_flatMap_escapeChar hp.plain (c :: cs)
      rw [List.flatMap_cons, hc, List.singleton_append] at hprefix ⊢
      rw [placesIn, placesIn, hprefix, ih]
    · have hlt : c ≠ '<' := fun heq => hc (heq ▸ by decide)
      rw [List.flatMap_cons, hp.placesIn_append_of_not_mem (escapeChar_of_ne hc).2, ih, placesIn,
        hp.not_isPrefixOf hlt]
      exact (Nat.zero_add _).symm

/-! ## Parts of JSON text -/

/-- A part of a text shows some texts: whatever follows, the places of the piece that it adds are those of the texts. -/
def Shows (piece part : String) (ts : List String) : Prop :=
  ∀ rest, placesIn piece.toList (part.toList ++ rest) = placesAll piece ts + placesIn piece.toList rest

/-- Parts of an output show what each of them shows. -/
theorem Shows.append {part more : String} (hpart : Shows piece part ts) (hmore : Shows piece more us) :
    Shows piece (part ++ more) (ts ++ us) := by
  intro rest
  rw [String.toList_append, List.append_assoc, hpart, hmore, placesAll_append, Nat.add_assoc]

/-- A part has the occurrences of what it shows. -/
theorem Shows.places_eq {part : String} (h : Shows piece part ts) : places piece part = placesAll piece ts := by
  have hrest := h []
  rwa [List.append_nil] at hrest

/-- A part without a less-than sign shows nothing. -/
theorem IsMarker.shows_nil (hp : IsMarker piece) (part : String) (h : '<' ∉ part.toList) : Shows piece part [] :=
  fun rest => (hp.placesIn_append_of_not_mem h rest).trans (Nat.zero_add _).symm

/-- A quoted text shows that text. -/
theorem IsMarker.shows_quoted (hp : IsMarker piece) (s : String) : Shows piece (quoted s) [s] := by
  intro rest
  have hquote : ∀ cs ds, placesIn piece.toList (cs ++ '"' :: ds) =
      placesIn piece.toList cs + placesIn piece.toList ds :=
    hp.placesIn_append_escaped (by decide) (by decide)
  have htoList : (quoted s).toList ++ rest = '"' :: (s.toList.flatMap escapeChar ++ '"' :: rest) := by
    simp [quoted]
  rw [htoList, ← List.nil_append ('"' :: _), hquote, hquote, hp.placesIn_flatMap_escapeChar, placesAll, placesAll]
  exact Nat.zero_add _

/-! ## Numbers -/

/-- Two texts without a less-than sign have none together. -/
theorem not_mem_append (hs : '<' ∉ s.toList) (ht : '<' ∉ t.toList) : '<' ∉ (s ++ t).toList := by
  rw [String.toList_append, List.mem_append]
  exact fun hmem => hmem.elim hs ht

/-- A numeral has no less-than sign. -/
theorem not_mem_repr (n : Nat) : '<' ∉ n.repr.toList := by
  intro hmem
  rw [Nat.toList_repr] at hmem
  exact absurd (Nat.isDigit_of_mem_toDigits (by decide) (by decide) hmem) (by decide)

/-- Nor has that of an integer. -/
theorem not_mem_toString_int (n : Int) : '<' ∉ (toString n).toList := by
  cases n with
  | ofNat n => exact not_mem_repr n
  | negSucc n => exact not_mem_append (s := "-") (by decide) (not_mem_repr (n + 1))

/-- Positional notation brings in no less-than sign. -/
theorem not_mem_positional (h : '<' ∉ cs) (whole : Int) : '<' ∉ (Number.positional cs whole).toList := by
  have hzeros : ∀ n, '<' ∉ List.replicate n '0' := fun n hmem => absurd (List.eq_of_mem_replicate hmem) (by decide)
  unfold Number.positional
  split
  · simp [h, hzeros]
  · split
    · simp [h, hzeros]
    · have htake : '<' ∉ cs.take whole.toNat := fun hmem => h (List.mem_of_mem_take hmem)
      have hdrop : '<' ∉ cs.drop whole.toNat := fun hmem => h (List.mem_of_mem_drop hmem)
      simp [htake, hdrop]

/-- Nor does scientific notation. -/
theorem not_mem_scientific (h : '<' ∉ cs) (exponent : Int) : '<' ∉ (Number.scientific cs exponent).toList := by
  have hhead : '<' ∉ (String.ofList (cs.take 1)).toList := by
    rw [String.toList_ofList]
    exact fun hmem => h (List.mem_of_mem_take hmem)
  have htail : '<' ∉ (String.ofList (cs.drop 1)).toList := by
    rw [String.toList_ofList]
    exact fun hmem => h (List.mem_of_mem_drop hmem)
  have hsize : '<' ∉ (toString exponent.natAbs).toList := not_mem_repr _
  refine not_mem_append (not_mem_append (not_mem_append ?_ (by decide)) ?_) ?_
  · split
    · exact hhead
    · exact not_mem_append (not_mem_append hhead (by decide)) htail
  · split <;> decide
  · split
    · exact not_mem_append (by decide) hsize
    · exact hsize

/-- The text of a number has no less-than sign. -/
theorem not_mem_text (x : Float) : '<' ∉ (Number.text x).toList := by
  unfold Number.text
  split
  · decide
  · split <;> decide
  · rename_i b _
    have hsign : '<' ∉ (if b.negative then "-" else "").toList := by split <;> decide
    have hdigits : '<' ∉ ((toString b.shortest.1).toList.reverse.dropWhile (· = '0')).reverse := by
      intro hmem
      have hmem := (List.dropWhile_sublist _).subset (List.mem_reverse.mp hmem)
      exact not_mem_repr _ (List.mem_reverse.mp hmem)
    dsimp only
    split
    · exact not_mem_append hsign (by decide)
    · refine not_mem_append hsign ?_
      split
      · exact not_mem_positional hdigits _
      · exact not_mem_scientific hdigits _

/-- Nor has that of an infinity or of no number. -/
theorem not_mem_floatText (x : Float) : '<' ∉ (floatText x).toList := by
  unfold floatText
  split
  · decide
  · decide
  · decide
  · exact not_mem_text x

/-! ## Values -/

/-- What leads a line shows nothing. -/
theorem IsMarker.shows_lead (hp : IsMarker piece) (depth : Nat) : Shows piece (Layout.line.lead depth) [] :=
  hp.shows_nil _ List.not_mem_nil

/-- What divides items shows nothing. -/
theorem IsMarker.shows_divider (hp : IsMarker piece) (depth : Nat) : Shows piece (Layout.line.divider depth) [] :=
  hp.shows_nil ", " (by decide)

mutual
/-- The output of a value shows the texts of the value. -/
theorem IsMarker.shows_renderAt (hp : IsMarker piece) (depth : Nat) (j : Json) :
    Shows piece (renderAt .line depth j) j.allTexts := by
  match j with
  | .null => exact hp.shows_nil "null" (by decide)
  | .bool true => exact hp.shows_nil "true" (by decide)
  | .bool false => exact hp.shows_nil "false" (by decide)
  | .int n => exact hp.shows_nil _ (not_mem_toString_int n)
  | .float x => exact hp.shows_nil _ (not_mem_floatText x)
  | .str s => exact hp.shows_quoted s
  | .arr [] => exact hp.shows_nil "[]" (by decide)
  | .arr (x :: xs) =>
    have hopening : Shows piece "[" [] := hp.shows_nil _ (by decide)
    have hclosing : Shows piece "]" [] := hp.shows_nil _ (by decide)
    have hall := ((((hopening.append (hp.shows_lead (depth + 1))).append (hp.shows_renderAt (depth + 1) x)).append
      (hp.shows_renderItems (depth + 1) xs)).append (hp.shows_lead depth)).append hclosing
    simpa [renderAt, allTexts, allTextsOfItems] using hall
  | .obj [] => exact hp.shows_nil "\x7b\x7d" (by decide)
  | .obj ((name, v) :: ms) =>
    have hopening : Shows piece "\x7b" [] := hp.shows_nil _ (by decide)
    have hcolon : Shows piece ": " [] := hp.shows_nil _ (by decide)
    have hclosing : Shows piece "\x7d" [] := hp.shows_nil _ (by decide)
    have hall := ((((((hopening.append (hp.shows_lead (depth + 1))).append (hp.shows_quoted name)).append hcolon).append
      (hp.shows_renderAt (depth + 1) v)).append (hp.shows_renderMembers (depth + 1) ms)).append
      (hp.shows_lead depth)).append hclosing
    simpa [renderAt, allTexts, allTextsOfMembers] using hall

/-- The output of items shows their texts. -/
theorem IsMarker.shows_renderItems (hp : IsMarker piece) (depth : Nat) (xs : List Json) :
    Shows piece (renderItems .line depth xs) (allTextsOfItems xs) := by
  match xs with
  | [] => exact hp.shows_nil _ List.not_mem_nil
  | x :: xs =>
    have hall := ((hp.shows_divider depth).append (hp.shows_renderAt depth x)).append (hp.shows_renderItems depth xs)
    simpa [renderItems, allTextsOfItems] using hall

/-- The output of members shows their texts. -/
theorem IsMarker.shows_renderMembers (hp : IsMarker piece) (depth : Nat) (ms : List (String × Json)) :
    Shows piece (renderMembers .line depth ms) (allTextsOfMembers ms) := by
  match ms with
  | [] => exact hp.shows_nil _ List.not_mem_nil
  | (name, v) :: ms =>
    have hcolon : Shows piece ": " [] := hp.shows_nil _ (by decide)
    have hall := ((((hp.shows_divider depth).append (hp.shows_quoted name)).append hcolon).append
      (hp.shows_renderAt depth v)).append (hp.shows_renderMembers depth ms)
    simpa [renderMembers, allTextsOfMembers] using hall
end

/-- The compact output of a value shows its texts. -/
theorem IsMarker.shows_compact (hp : IsMarker piece) (j : Json) : Shows piece j.compact j.allTexts :=
  hp.shows_renderAt 0 j

/-- A marker stands in the text of a value as often as in the texts that the value holds: none of them is escaped, and
none is added. -/
theorem IsMarker.places_compact (hp : IsMarker piece) (j : Json) :
    places piece j.compact = placesAll piece j.allTexts :=
  (hp.shows_compact j).places_eq

end RepoAtlas.Json
