import RepoAtlas.Proofs.Repository.Listing
import RepoAtlas.Proofs.Text.Tidy
import RepoAtlas.Repository.Census

/-!
# Where a repository lies

Languages are counted over the places of files from the root of the file system, and names are skipped wherever
they stand in such a place. So a skipped name above a repository leaves nothing to count; elsewhere the count is
that of the tree itself.
-/

namespace RepoAtlas

namespace FileNode

mutual
/-- Whether the names in every directory are distinct, hold no slash and are no double dot. -/
def isOrderly : FileNode → Bool
  | .directory _ children => decide (children.map (·.1)).Nodup && allOrderly children
  | _ => true

/-- Whether the children of a directory are orderly, and so are their names. -/
def allOrderly : List (String × FileNode) → Bool
  | [] => true
  | (name, c) :: rest => name != ".." && !name.toList.contains '/' && c.isOrderly && allOrderly rest
end

mutual
/-- A tree as far as its directories can be listed. -/
def visible : FileNode → FileNode
  | .directory listable children => .directory true (if listable then allVisible children else [])
  | .file bytes => .file bytes
  | .link target => .link target
  | .pipe => .pipe

/-- The children of a directory as far as directories can be listed. -/
def allVisible : List (String × FileNode) → List (String × FileNode)
  | [] => []
  | (name, c) :: rest => (name, c.visible) :: allVisible rest
end

variable {n m : FileNode} {children : List (String × FileNode)} {name : String}

/-- All children are orderly if each of them is. -/
theorem allOrderly_iff :
    allOrderly children ↔ ∀ e ∈ children, e.1 ≠ ".." ∧ '/' ∉ e.1.toList ∧ e.2.isOrderly := by
  induction children with
  | nil => simp [allOrderly]
  | cons e rest ih => simp [allOrderly, ih, and_assoc]

/-- A directory is orderly if its names and its children are. -/
theorem isOrderly_directory {listable : Bool} : (directory listable children).isOrderly ↔
    (children.map (·.1)).Nodup ∧ ∀ e ∈ children, e.1 ≠ ".." ∧ '/' ∉ e.1.toList ∧ e.2.isOrderly := by
  simp [isOrderly, allOrderly_iff]

/-- In an orderly tree names that do not lead to a link lead straight down. -/
theorem straight?_of_at? {names : List String} (hn : n.isOrderly) (h : n.at? names = some m)
    (hm : m.isLink = false) : n.straight? names = some m := by
  induction names generalizing n with
  | nil =>
    cases h
    simp [straight?, hm]
  | cons name rest ih =>
    obtain ⟨c, hchild, hrest⟩ := Option.bind_eq_some_iff.mp h
    cases n with
    | directory listable children =>
      obtain ⟨hname, -, hc⟩ := (isOrderly_directory.mp hn).2 _ (Keyed.mem_of_lookup hchild)
      simp [straight?, hname, isDirectory, hchild, ih hc hrest]
    | _ => cases hchild

/-- The children of a directory are seen one by one. -/
theorem allVisible_eq (children : List (String × FileNode)) :
    allVisible children = children.map fun e => (e.1, e.2.visible) := by
  induction children with
  | nil => rfl
  | cons e rest ih => rw [allVisible, ih, List.map_cons]

/-- What is seen under a name is what can be seen of the child with this name. -/
theorem lookup_allVisible (children : List (String × FileNode)) (name : String) :
    (allVisible children).lookup name = (children.lookup name).map visible := by
  induction children with
  | nil => rfl
  | cons entry rest ih =>
    rw [allVisible, List.lookup_cons, List.lookup_cons]
    cases name == entry.1 <;> simp [ih]

/-- The first name of a way into what is seen of a listable directory leads to one of its children. -/
theorem at?_visible_cons {rest : List String} :
    (directory true children).visible.at? (name :: rest) = some m ↔
      ∃ c, children.lookup name = some c ∧ c.visible.at? rest = some m := by
  rw [visible, if_pos rfl, at?_directory, lookup_allVisible]
  constructor
  · rintro ⟨d, hd, hrest⟩
    obtain ⟨c, hc, rfl⟩ := Option.map_eq_some_iff.mp hd
    exact ⟨c, hc, hrest⟩
  · rintro ⟨c, hc, hrest⟩
    exact ⟨c.visible, by rw [hc, Option.map_some], hrest⟩

/-- What is seen of a tree and is no directory is there. -/
theorem at?_of_visible {q : List String} (h : n.visible.at? q = some m) (hm : m.isDirectory = false) :
    n.at? q = some m := by
  induction q generalizing n with
  | nil =>
    cases h
    cases n with
    | directory listable children => cases hm
    | _ => rfl
  | cons name rest ih =>
    cases n with
    | directory listable children =>
      cases listable with
      | false => cases h
      | true =>
        obtain ⟨c, hc, hrest⟩ := at?_visible_cons.mp h
        exact at?_directory.mpr ⟨c, hc, ih hrest⟩
    | _ => cases h

end FileNode

namespace Repository

open FileNode

variable {root t n : FileNode} {place q : List String}

/-- The leaves below some children are those below each of them. -/
theorem leavesIn_eq (place : List String) (children : List (String × FileNode)) :
    leavesIn place children = children.flatMap fun e => leavesBelow (place ++ [e.1]) e.2 := by
  induction children with
  | nil => rw [leavesIn, List.flatMap_nil]
  | cons e rest ih => rw [leavesIn, ih, List.flatMap_cons]

/-- The leaves below a node are told with its place before them. -/
theorem leavesBelow_append (way place : List String) (n : FileNode) :
    leavesBelow (way ++ place) n = (leavesBelow place n).map (way ++ ·) := by
  induction n using FileNode.induction generalizing place with
  | directory listable children ih =>
    cases listable with
    | false => rfl
    | true =>
      have hamong : leavesAmong (way ++ place) children = (leavesAmong place children).map (way ++ ·) := by
        simp [leavesAmong]
      rw [leavesBelow, leavesBelow, hamong, leavesIn_eq, leavesIn_eq, List.map_append, List.map_flatMap]
      congr 1
      exact List.flatMap_congr fun e he => by rw [List.append_assoc, ih e he]
  | _ => simp [leavesBelow]

/-- A way to a leaf below a directory goes on from a child. -/
theorem mem_leavesBelow_directory {children : List (String × FileNode)} :
    q ∈ leavesBelow [] (.directory true children) ↔
      ∃ e ∈ children, q = [e.1] ∧ isLeaf e.2 ∨ ∃ rest ∈ leavesBelow [] e.2, q = e.1 :: rest := by
  have hbelow : ∀ e : String × FileNode, leavesBelow ([] ++ [e.1]) e.2 = (leavesBelow [] e.2).map ([e.1] ++ ·) :=
    fun e => leavesBelow_append [e.1] [] e.2
  simp only [leavesBelow, leavesAmong, leavesIn_eq, hbelow, List.mem_append, List.mem_map, List.mem_filter,
    List.mem_flatMap]
  constructor
  · rintro (⟨e, ⟨he, hleaf⟩, rfl⟩ | ⟨e, he, rest, hrest, rfl⟩)
    · exact ⟨e, he, .inl ⟨rfl, hleaf⟩⟩
    · exact ⟨e, he, .inr ⟨rest, hrest, rfl⟩⟩
  · rintro ⟨e, he, ⟨rfl, hleaf⟩ | ⟨rest, hrest, rfl⟩⟩
    · exact .inl ⟨e, ⟨he, hleaf⟩, rfl⟩
    · exact .inr ⟨e, he, rest, hrest, rfl⟩

/-- The leaves below a node are at a distance from it. -/
theorem ne_nil_of_mem_leavesBelow (h : q ∈ leavesBelow [] n) : q ≠ [] := by
  rintro rfl
  cases n with
  | directory listable children =>
    cases listable with
    | false => cases h
    | true => simp [mem_leavesBelow_directory] at h
  | _ => simp [leavesBelow] at h

/-- Leaves can be seen as such. -/
theorem isLeaf_visible (n : FileNode) : isLeaf n.visible = isLeaf n := by
  cases n <;> rfl

/-- The leaves below a node are the leaves that can be seen in it. -/
theorem mem_leavesBelow (hn : n.isOrderly) :
    q ∈ leavesBelow [] n ↔ q ≠ [] ∧ ∃ m, n.visible.at? q = some m ∧ isLeaf m := by
  induction n using FileNode.induction generalizing q with
  | directory listable children ih =>
    obtain ⟨hnodup, hchildren⟩ := isOrderly_directory.mp hn
    cases listable with
    | false => cases q <;> simp [leavesBelow, visible, at?, child?, FileNode.children]
    | true =>
      cases q with
      | nil => exact iff_of_false (fun h => ne_nil_of_mem_leavesBelow h rfl) fun h => h.1 rfl
      | cons name rest =>
        have hchild : ∀ c, (name, c) ∈ children → (rest ∈ leavesBelow [] c ↔
            rest ≠ [] ∧ ∃ m, c.visible.at? rest = some m ∧ isLeaf m) :=
          fun c hc => ih _ hc (hchildren _ hc).2.2
        simp only [mem_leavesBelow_directory, at?_visible_cons, Keyed.lookup_eq_some_iff hnodup]
        constructor
        · rintro ⟨⟨x, c⟩, hmem, ⟨heq, hleaf⟩ | ⟨way, hway, heq⟩⟩
          · cases heq
            exact ⟨List.cons_ne_nil _ _, c.visible, ⟨c, hmem, rfl⟩, isLeaf_visible c ▸ hleaf⟩
          · cases heq
            obtain ⟨-, m, hat, hm⟩ := (hchild c hmem).mp hway
            exact ⟨List.cons_ne_nil _ _, m, ⟨c, hmem, hat⟩, hm⟩
        · rintro ⟨-, m, ⟨c, hmem, hat⟩, hm⟩
          refine ⟨(name, c), hmem, ?_⟩
          cases rest with
          | nil =>
            cases hat
            exact .inl ⟨rfl, isLeaf_visible c ▸ hm⟩
          | cons x more => exact .inr ⟨_, (hchild c hmem).mpr ⟨List.cons_ne_nil _ _, m, hat, hm⟩, rfl⟩
  | _ => cases q <;> simp [leavesBelow, visible, at?, child?, FileNode.children]

/-- A file that lies straight below a place leads to a file. -/
theorem leadsToFile_of_file {bytes : List UInt8} (ht : t.isOrderly) (hplace : root.straight? place = some t)
    (hat : t.at? q = some (.file bytes)) : leadsToFile root (place ++ q) = true := by
  have hdone := at?_of_straight? hplace
  have hq := straight?_of_at? ht hat rfl
  have hway : seek root true linkLimit [] (place ++ q) = seek root true linkLimit ([] ++ place) q :=
    seek_append_of_straight? true linkLimit rfl hplace q
  have hrest := seek_append_of_straight? true linkLimit hdone hq []
  have hend : root.at? (place ++ q) = some (.file bytes) := by rw [at?_append, hdone, Option.bind_some, hat]
  rw [List.append_nil] at hrest
  rw [leadsToFile, hway, List.nil_append, hrest, seek, hend]
  rfl

/-- The languages of the files in a tree by itself, where `leads` tells which of its leaves lead to files. -/
def ownLanguages (leads : List String → Bool) (t : FileNode) : List String :=
  ((leavesBelow [] t).filter fun q => leads q && !q.any skippedNames.contains).filterMap fun q =>
    countedLanguage? (q.getLast?.getD "")

/-- Nothing is told just of no languages. -/
theorem tally_eq_nil_iff {all : List String} : tally all = [] ↔ all = [] := by
  constructor
  · intro h
    by_contra hne
    obtain ⟨l, hl⟩ := List.exists_mem_of_ne_nil all hne
    have hmem : (l, all.count l) ∈ tally all :=
      List.mem_mergeSort.mpr (List.mem_map_of_mem (List.mem_eraseDups.mpr hl))
    rw [h] at hmem
    cases hmem
  · rintro rfl
    simp [tally]

/-- A skipped name stands in a place. -/
def OnSkipped (place : List String) : Prop :=
  ∃ name ∈ place, name ∈ skippedNames

/-- Whether a skipped name stands in a place can be computed. -/
theorem onSkipped_iff : OnSkipped place ↔ place.any skippedNames.contains = true := by
  simp [OnSkipped]

/-- Below a skipped name nothing is counted, elsewhere the languages are those of the tree by itself. -/
theorem languagesBelow_eq (hat : root.at? place = some t) :
    languagesBelow root place = if place.any skippedNames.contains then []
      else ownLanguages (fun q => leadsToFile root (place ++ q)) t := by
  have hleaves : leavesBelow place t = (leavesBelow [] t).map (place ++ ·) := by
    rw [← leavesBelow_append, List.append_nil]
  have hlast : ∀ q ∈ leavesBelow [] t, (place ++ q).getLast?.getD "" = q.getLast?.getD "" := by
    intro q hq
    rw [List.getLast?_append_of_ne_nil _ (ne_nil_of_mem_leavesBelow hq)]
  have hlanguages : languagesBelow root place = ((leavesBelow [] t).filter fun q =>
      leadsToFile root (place ++ q) && !(place ++ q).any skippedNames.contains).filterMap fun q =>
        countedLanguage? ((place ++ q).getLast?.getD "") := by
    simp only [languagesBelow, hat, Option.map_some, Option.getD_some, hleaves, List.filter_map,
      List.filterMap_map, Function.comp_def]
  rw [hlanguages]
  cases hskip : place.any skippedNames.contains with
  | true => simp [hskip]
  | false =>
    simp only [List.any_append, hskip, Bool.false_or, Bool.false_eq_true, if_false, ownLanguages]
    exact List.filterMap_congr fun q hq => congrArg countedLanguage? (hlast q (List.mem_of_mem_filter hq))

/-- Below a skipped name the count is empty, elsewhere it is that of the tree by itself. -/
theorem census_eq (hat : root.at? place = some t) :
    census root place = if place.any skippedNames.contains then []
      else tally (ownLanguages (fun q => leadsToFile root (place ++ q)) t) := by
  rw [census, languagesBelow_eq hat]
  split
  · exact tally_eq_nil_iff.mpr rfl
  · rfl

variable {root₁ root₂ : FileNode} {place₁ place₂ : List String}

end Repository

end RepoAtlas
