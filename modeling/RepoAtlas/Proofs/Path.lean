import RepoAtlas.Path
import RepoAtlas.Proofs.Text.Cutting

/-!
# Paths part by part

A path is tidied by joining its parts, and its double dots are resolved part by part. Whatever changes a path
part by part, and no empty part or dots, can be done before or after all this.
-/

namespace RepoAtlas.Text

variable {sep : Char} {s t : List Char}

/-- What is added without a separator makes the last part longer. -/
theorem exists_cut_append_of_not_mem (s : List Char) (ht : sep ∉ t) :
    ∃ front last, cut sep s = front ++ [last] ∧ cut sep (s ++ t) = front ++ [last ++ t] := by
  induction s with
  | nil => exact ⟨[], [], rfl, cut_of_not_mem ht⟩
  | cons c s ih =>
    obtain ⟨front, last, hs, hst⟩ := ih
    rw [List.cons_append, cut, cut, hs, hst]
    split
    · exact ⟨[] :: front, last, rfl, rfl⟩
    · cases front with
      | nil => exact ⟨[], c :: last, rfl, rfl⟩
      | cons part front => exact ⟨(c :: part) :: front, last, rfl, rfl⟩

/-- Joining puts the first part and a separator before the rest. -/
theorem join_cons_of_ne_nil (sep x : String) {xs : List String} (hne : xs ≠ []) :
    join sep (x :: xs) = x ++ sep ++ join sep xs := by
  obtain ⟨y, ys, rfl⟩ := List.exists_cons_of_ne_nil hne
  simp only [join, String.intercalate_cons_cons]

/-- What is added to the last part is added to the whole. -/
theorem join_concat_append (sep : String) (xs : List String) (x tail : String) :
    join sep (xs ++ [x ++ tail]) = join sep (xs ++ [x]) ++ tail := by
  induction xs with
  | nil => simp [join]
  | cons y ys ih =>
    rw [List.cons_append, List.cons_append, join_cons_of_ne_nil _ _ (by simp), join_cons_of_ne_nil _ _ (by simp), ih]
    simp only [String.append_assoc]

/-- An end that is added can be taken away. -/
theorem withoutEnd?_append (s tail : String) : withoutEnd? (s ++ tail) tail = some s := by
  have hends : ends (s ++ tail) tail = true := by
    rw [ends, List.isSuffixOf_iff_suffix, String.toList_append]
    exact List.suffix_append _ _
  rw [withoutEnd?, if_pos hends, String.length_append, Nat.add_sub_cancel, String.toList_append,
    ← String.length_toList, List.take_left, String.ofList_toList]

/-- A text is what is left without an end, and the end. -/
theorem eq_append_of_withoutEnd? {s tail rest : String} (h : withoutEnd? s tail = some rest) : s = rest ++ tail := by
  have hends : ends s tail = true := (Option.ite_none_right_eq_some.mp h).1
  obtain ⟨start, hstart⟩ := List.isSuffixOf_iff_suffix.mp hends
  have hs : s = String.ofList start ++ tail := by
    rw [← String.toList_inj, ← hstart]
    simp
  rw [hs, withoutEnd?_append] at h
  rw [hs, Option.some.inj h]

end RepoAtlas.Text

namespace RepoAtlas.Path

variable {p q r x : String} {xs ys done : List String} {absolute : Bool}

/-- A text that stays when a path is made tidy. -/
structure IsPart (x : String) : Prop where
  notEmpty : x ≠ ""
  notDot : x ≠ "."
  notCut : '/' ∉ x.toList

/-- The parts of a path are proper. -/
theorem isPart_of_mem_parts (h : x ∈ parts p) : IsPart x := by
  obtain ⟨hsplit, hkept⟩ := List.mem_filter.mp h
  simp only [Bool.and_eq_true, bne_iff_ne] at hkept
  exact ⟨hkept.1, hkept.2, Text.not_mem_of_mem_split hsplit⟩

/-- Proper parts that are joined are the parts of the path. -/
theorem parts_join (h : ∀ x ∈ xs, IsPart x) : parts (Text.join "/" xs) = xs := by
  by_cases hne : xs = []
  · subst hne
    rfl
  · rw [parts, Text.split_join hne fun x hx => (h x hx).notCut, List.filter_eq_self]
    intro x hx
    simp [(h x hx).notEmpty, (h x hx).notDot]

/-- A slash in front adds no part. -/
theorem parts_slash (p : String) : parts ("/" ++ p) = parts p := by
  have hsplit := Text.split_append_slash "" p
  rw [String.empty_append] at hsplit
  rw [parts, hsplit, List.filter_append]
  rfl

/-- A path is absolute if nothing stands before its first slash. -/
theorem isAbsolute_iff : isAbsolute p = true ↔ ∃ rest, rest ≠ [] ∧ Text.split '/' p = "" :: rest := by
  constructor
  · intro h
    obtain ⟨t, rfl⟩ := Text.exists_of_begins h
    have hsplit := Text.split_append_slash "" t
    rw [String.empty_append] at hsplit
    refine ⟨Text.split '/' t, ?_, hsplit⟩
    rw [Text.split]
    simpa using Text.cut_ne_nil '/' t.toList
  · rintro ⟨rest, hne, hsplit⟩
    have hjoin : Text.join "/" (Text.split '/' p) = p := Text.join_split p
    rw [hsplit, Text.join_cons_of_ne_nil _ _ hne, String.empty_append] at hjoin
    rw [← hjoin, isAbsolute, Text.begins, String.toList_append]
    exact List.isPrefixOf_iff_prefix.mpr (List.prefix_append _ _)

/-- Proper parts that are joined are no absolute path. -/
theorem isAbsolute_join (h : ∀ x ∈ xs, IsPart x) : isAbsolute (Text.join "/" xs) = false := by
  rw [Bool.eq_false_iff, ne_eq, isAbsolute_iff]
  rintro ⟨rest, hrest, hsplit⟩
  by_cases hne : xs = []
  · subst hne
    exact hrest (List.cons.inj hsplit).2.symm
  · rw [Text.split_join hne fun x hx => (h x hx).notCut] at hsplit
    exact (h "" (hsplit ▸ List.mem_cons_self)).notEmpty rfl

/-- The root of a path is empty, or one or two slashes. -/
theorem rootOf_cases (p : String) :
    rootOf p = "" ∧ isAbsolute p = false ∨ (rootOf p = "/" ∨ rootOf p = "//") ∧ isAbsolute p = true := by
  unfold rootOf isAbsolute Text.begins
  split
  · rename_i h
    simp [h]
  · rename_i h
    simp [h]
  · rename_i h
    simp [h]
  · rename_i hnone
    refine .inl ⟨rfl, ?_⟩
    rw [Bool.eq_false_iff, ne_eq, List.isPrefixOf_iff_prefix]
    rintro ⟨rest, hrest⟩
    exact hnone rest hrest.symm

/-- A root in front adds no part. -/
theorem parts_rootOf_append (p q : String) : parts (rootOf p ++ q) = parts q := by
  rcases rootOf_cases p with ⟨h, -⟩ | ⟨h | h, -⟩
  · rw [h, String.empty_append]
  · rw [h, parts_slash]
  · rw [h, show "//" = "/" ++ "/" from rfl, String.append_assoc, parts_slash, parts_slash]

/-- Tidying keeps the parts. -/
theorem parts_tidy (p : String) : parts (tidy p) = parts p := by
  have hparts : parts (rootOf p ++ Text.join "/" (parts p)) = parts p := by
    rw [parts_rootOf_append, parts_join fun x hx => isPart_of_mem_parts hx]
  unfold tidy
  dsimp only
  split
  · rename_i hempty
    rw [hempty] at hparts
    exact hparts
  · exact hparts

/-- Tidying keeps whether a path is absolute. -/
theorem isAbsolute_tidy (p : String) : isAbsolute (tidy p) = isAbsolute p := by
  have hjoin : isAbsolute (Text.join "/" (parts p)) = false := isAbsolute_join fun x hx => isPart_of_mem_parts hx
  unfold tidy
  dsimp only
  rcases rootOf_cases p with ⟨hroot, hp⟩ | ⟨hroot | hroot, hp⟩
  · rw [hroot, hp, String.empty_append]
    split
    · rfl
    · exact hjoin
  all_goals
    rw [hroot, hp, if_neg (by simp)]
    simp [isAbsolute, Text.begins]

/-- Proper parts that are joined are tidy. -/
theorem tidy_join (hne : xs ≠ []) (h : ∀ x ∈ xs, IsPart x) : tidy (Text.join "/" xs) = Text.join "/" xs := by
  have hroot : rootOf (Text.join "/" xs) = "" := by
    rcases rootOf_cases (Text.join "/" xs) with ⟨hroot, -⟩ | ⟨-, habsolute⟩
    · exact hroot
    · rw [isAbsolute_join h] at habsolute
      exact absurd habsolute Bool.false_ne_true
  have hsome : Text.join "/" xs ≠ "" := by
    intro hempty
    have hparts := parts_join h
    rw [hempty] at hparts
    exact hne hparts.symm
  rw [tidy, hroot, parts_join h, String.empty_append, if_neg hsome]

/-- The parts that are done after one more part, nearest first. -/
def push (absolute : Bool) (done : List String) (x : String) : List String :=
  if x = ".." then
    match done with
    | [] => if absolute then [] else [".."]
    | d :: up => if d = ".." then ".." :: done else up
  else x :: done

/-- Parts are resolved by pushing them one by one. -/
theorem resolve_eq (absolute : Bool) (done xs : List String) :
    resolve absolute done xs = (xs.foldl (push absolute) done).reverse := by
  induction xs generalizing done with
  | nil => rfl
  | cons x xs ih =>
    rw [List.foldl_cons, ← ih]
    by_cases hx : x = ".."
    · subst hx
      cases done with
      | nil => cases absolute <;> rfl
      | cons d up =>
        by_cases hd : d = ".."
        · subst hd
          rfl
        · simp [resolve, push, hd]
    · simp [resolve, push, hx]

/-- The normal parts are the parts pushed one by one. -/
theorem normalParts_eq (p : String) : normalParts p = ((parts p).foldl (push (isAbsolute p)) []).reverse :=
  resolve_eq _ _ _

/-- A tidy path leads to the same place. -/
theorem normalParts_tidy (p : String) : normalParts (tidy p) = normalParts p := by
  rw [normalParts, normalParts, isAbsolute_tidy, parts_tidy]

/-- A relative path does not depend on tidying. -/
theorem relative_tidy (p r : String) : relative (tidy p) r = relative p r := by
  rw [relative, relative, normalParts_tidy]

/-- Pushing a proper part keeps all parts proper. -/
theorem isPart_of_mem_push (hdone : ∀ y ∈ done, IsPart y) (hx : IsPart x) : ∀ y ∈ push absolute done x, IsPart y := by
  intro y hy
  unfold push at hy
  split at hy
  · rename_i hup
    subst hup
    split at hy
    · split at hy
      · cases hy
      · exact List.mem_singleton.mp hy ▸ hx
    · split at hy
      · rcases List.mem_cons.mp hy with rfl | hy
        · exact hx
        · exact hdone y hy
      · exact hdone y (List.mem_cons_of_mem _ hy)
  · rcases List.mem_cons.mp hy with rfl | hy
    · exact hx
    · exact hdone y hy

/-- Normal parts are proper. -/
theorem isPart_of_mem_normalParts (h : x ∈ normalParts p) : IsPart x := by
  rw [normalParts_eq, List.mem_reverse] at h
  have hfold : ∀ (xs done : List String), (∀ y ∈ xs, IsPart y) → (∀ y ∈ done, IsPart y) →
      ∀ y ∈ xs.foldl (push (isAbsolute p)) done, IsPart y := by
    intro xs
    induction xs with
    | nil => exact fun done _ hdone => hdone
    | cons x xs ih =>
      intro done hxs hdone
      exact ih _ (fun y hy => hxs y (List.mem_cons_of_mem x hy))
        (isPart_of_mem_push hdone (hxs x List.mem_cons_self))
  exact hfold (parts p) [] (fun y hy => isPart_of_mem_parts hy) (fun y hy => absurd hy List.not_mem_nil) x h

/-- Where a path with an ending leads ends in the last part of the path. -/
theorem exists_normalParts_of_ends {tail : String} (hslash : '/' ∉ tail.toList) (hlong : 2 < tail.length)
    (h : Text.ends p tail = true) : ∃ above name, normalParts p = above ++ [name ++ tail] := by
  obtain ⟨start, hstart⟩ := List.isSuffixOf_iff_suffix.mp h
  obtain ⟨front, last, -, hcut⟩ := Text.exists_cut_append_of_not_mem start hslash
  have hlast : ∀ y : String, y.length ≤ 2 → String.ofList last ++ tail ≠ y := by
    rintro y hy rfl
    rw [String.length_append] at hy
    omega
  have hparts : parts p = (front.map String.ofList).filter (fun s => s != "" && s != ".") ++
      [String.ofList last ++ tail] := by
    rw [parts, Text.split, ← hstart, hcut, List.map_append, List.filter_append, List.map_singleton,
      String.ofList_append, String.ofList_toList, List.filter_cons_of_pos, List.filter_nil]
    simp [hlast "" (by decide), hlast "." (by decide)]
  have hpush : ∀ done, push (isAbsolute p) done (String.ofList last ++ tail) = (String.ofList last ++ tail) :: done :=
    fun done => if_neg (hlast ".." (by decide))
  rw [normalParts_eq, hparts, List.foldl_append, List.foldl_cons, List.foldl_nil, hpush, List.reverse_cons]
  exact ⟨_, String.ofList last, rfl⟩

/-- A list and one that goes on from it part at the end of the first. -/
theorem diverge_append (xs ys : List String) : diverge xs (xs ++ ys) = ([], ys) := by
  induction xs with
  | nil => cases ys <;> rfl
  | cons x xs ih => rw [List.cons_append, diverge, if_pos rfl, ih]

/-- There is nothing to go up from the beginning of a list. -/
theorem prefix_of_diverge (h : (diverge xs ys).1 = []) : xs <+: ys := by
  induction xs generalizing ys with
  | nil => exact List.nil_prefix
  | cons x xs ih =>
    cases ys with
    | nil => exact absurd h (List.cons_ne_nil x xs)
    | cons y ys =>
      rw [diverge] at h
      split at h
      · rename_i heq
        exact heq ▸ (List.prefix_cons_inj x).mpr (ih h)
      · exact absurd h (List.cons_ne_nil x xs)

/-- From a directory above it, a path is seen as its parts below that directory. -/
theorem relative_of_inside {below : List String} (hbelow : below ≠ [])
    (h : normalParts p = normalParts r ++ below) : relative p r = Text.join "/" below := by
  rw [relative, h, diverge_append]
  simp [hbelow]

/-- A path that is relative to nothing is tidy. -/
theorem tidy_of_plain (hne : normalParts p ≠ []) (h : relative p "" = p) : tidy p = p := by
  have hjoin : p = Text.join "/" (normalParts p) := h.symm.trans (relative_of_inside hne rfl)
  rw [hjoin, tidy_join hne fun x hx => isPart_of_mem_normalParts hx]

/-- From elsewhere a path is reached by going up first. -/
theorem begins_relative_of_outside (h : ¬normalParts r <+: normalParts p) : Text.begins (relative p r) ".." = true := by
  obtain ⟨up, down, hdiverge⟩ : ∃ up down, diverge (normalParts r) (normalParts p) = (up, down) := ⟨_, _, rfl⟩
  obtain ⟨u, up, rfl⟩ : ∃ u rest, up = u :: rest := by
    refine List.exists_cons_of_ne_nil fun hnil => h (prefix_of_diverge ?_)
    rw [hdiverge]
    exact hnil
  rw [relative, hdiverge]
  dsimp only
  rw [List.map_cons, List.cons_append, if_neg (by simp)]
  by_cases hrest : up.map (fun _ => "..") ++ down = []
  · rw [hrest]
    decide
  · rw [Text.join_cons_of_ne_nil _ _ hrest, Text.begins, String.toList_append, String.toList_append, List.append_assoc]
    exact List.isPrefixOf_iff_prefix.mpr (List.prefix_append _ _)

/-- The first of the given endings is dropped. -/
theorem dropEnding_append (p tail : String) (tails : List String) : dropEnding (p ++ tail) (tail :: tails) = p := by
  rw [dropEnding, List.findSome?_cons, Text.withoutEnd?_append]

/-- A path that goes up first begins with a dot even without its ending. -/
theorem begins_dropEnding {endings : List String} (h : Text.begins p ".." = true)
    (hendings : ∀ e ∈ endings, Text.begins e ".." = false) : Text.begins (dropEnding p endings) "." = true := by
  rw [Text.begins, List.isPrefixOf_iff_prefix] at h ⊢
  unfold dropEnding
  split
  · rename_i start hstart
    obtain ⟨e, he, hstart⟩ := List.exists_of_findSome?_eq_some hstart
    rw [Text.eq_append_of_withoutEnd? hstart, String.toList_append] at h
    cases hchars : start.toList with
    | nil =>
      rw [hchars, List.nil_append, ← List.isPrefixOf_iff_prefix] at h
      exact absurd h (Bool.eq_false_iff.mp (hendings e he))
    | cons c cs =>
      rw [hchars, List.cons_append] at h
      obtain ⟨rfl, -⟩ := List.cons_prefix_cons.mp h
      exact List.cons_prefix_cons.mpr ⟨rfl, List.nil_prefix⟩
  · exact (List.prefix_append ['.'] ['.']).trans h

/-- Dots are put for slashes in two texts alike. -/
theorem dotted_append (p q : String) : dotted (p ++ q) = dotted p ++ dotted q := by
  simp [dotted, Text.replaceChar]

/-- A text that begins with a dot does so with dots for slashes. -/
theorem begins_dotted (h : Text.begins p "." = true) : Text.begins (dotted p) "." = true := by
  obtain ⟨rest, rfl⟩ := Text.exists_of_begins h
  rw [dotted_append, Text.begins, List.isPrefixOf_iff_prefix, String.toList_append]
  exact List.prefix_append _ _

/-- A change of paths that goes part by part, and makes and unmakes no empty part and no dots. -/
structure PartByPart (f : String → String) : Prop where
  split (p : String) : Text.split '/' (f p) = (Text.split '/' p).map f
  empty (p : String) : f p = "" ↔ p = ""
  dot (p : String) : f p = "." ↔ p = "."
  dots (p : String) : f p = ".." ↔ p = ".."

namespace PartByPart

variable {f : String → String}

/-- A change part by part changes the parts. -/
theorem parts_eq (h : PartByPart f) (p : String) : parts (f p) = (parts p).map f := by
  rw [parts, parts, h.split, List.filter_map]
  congr 1
  refine List.filter_congr fun x _ => ?_
  rw [Bool.eq_iff_iff]
  simp [h.empty, h.dot]

/-- It keeps whether a path is absolute. -/
theorem isAbsolute_eq (h : PartByPart f) (p : String) : isAbsolute (f p) = isAbsolute p := by
  rw [Bool.eq_iff_iff, isAbsolute_iff, isAbsolute_iff, h.split]
  cases Text.split '/' p with
  | nil => simp
  | cons x xs => simp [h.empty]

/-- It can be made before or after pushing. -/
theorem push_eq (h : PartByPart f) (absolute : Bool) (done : List String) (x : String) :
    push absolute (done.map f) (f x) = (push absolute done x).map f := by
  have hup : f ".." = ".." := (h.dots "..").mpr rfl
  unfold push
  by_cases hx : x = ".."
  · rw [if_pos ((h.dots x).mpr hx), if_pos hx]
    cases done with
    | nil => cases absolute <;> simp [hup]
    | cons d done =>
      simp only [List.map_cons, h.dots]
      split <;> simp [hup]
  · rw [if_neg fun hfx => hx ((h.dots x).mp hfx), if_neg hx, List.map_cons]

/-- It changes the normal parts. -/
theorem normalParts_eq (h : PartByPart f) (p : String) : normalParts (f p) = (normalParts p).map f := by
  have hfold : ∀ (xs done : List String), (xs.map f).foldl (push (isAbsolute p)) (done.map f) =
      (xs.foldl (push (isAbsolute p)) done).map f := by
    intro xs
    induction xs with
    | nil => exact fun done => rfl
    | cons x xs ih =>
      intro done
      rw [List.map_cons, List.foldl_cons, List.foldl_cons, h.push_eq, ih]
  rw [Path.normalParts_eq, Path.normalParts_eq, h.parts_eq, h.isAbsolute_eq, List.map_reverse]
  exact congrArg List.reverse (hfold (parts p) [])

/-- It can be made before or after joining. -/
theorem join_eq (h : PartByPart f) (hne : xs ≠ []) (hxs : ∀ x ∈ xs, IsPart x) :
    f (Text.join "/" xs) = Text.join "/" (xs.map f) := by
  have hsplit : Text.split '/' (Text.join "/" xs) = xs := Text.split_join hne fun x hx => (hxs x hx).notCut
  have hjoin : Text.join "/" (Text.split '/' (f (Text.join "/" xs))) = f (Text.join "/" xs) := Text.join_split _
  rw [← hjoin, h.split, hsplit]

/-- It keeps paths that are relative to nothing. -/
theorem plain (h : PartByPart f) (hne : normalParts p ≠ []) (hp : relative p "" = p) : relative (f p) "" = f p := by
  have hjoin : p = Text.join "/" (normalParts p) := hp.symm.trans (relative_of_inside hne rfl)
  have hne' : (normalParts p).map f ≠ [] := by simpa using hne
  calc
    relative (f p) "" = Text.join "/" ((normalParts p).map f) := relative_of_inside hne' (h.normalParts_eq p)
    _ = f (Text.join "/" (normalParts p)) := (h.join_eq hne fun x hx => isPart_of_mem_normalParts hx).symm
    _ = f p := by rw [← hjoin]

end PartByPart

end RepoAtlas.Path
