import Mathlib.Data.List.Nodup
import RepoAtlas.Keyed
import RepoAtlas.Proofs.Files.Reading
import RepoAtlas.Proofs.Text.Cutting
import RepoAtlas.Repository.FileTree

/-!
# What a file tree lists

Where all directories can be listed, a file tree lists just the files that are included and have nothing
excluded on their way, each of them once, and no directory without a file in it.
-/

namespace RepoAtlas

namespace FileNode

mutual
/-- Whether every directory can be listed, and has distinct names that hold no slash. -/
def isReadable : FileNode → Bool
  | .directory listable children =>
    listable && decide (children.map (·.1)).Nodup && allReadable children
  | _ => true

/-- Whether the children of a directory are readable, and their names hold no slash. -/
def allReadable : List (String × FileNode) → Bool
  | [] => true
  | (name, c) :: rest => !name.toList.contains '/' && c.isReadable && allReadable rest
end

variable {n m : FileNode} {children : List (String × FileNode)} {name : String}

/-- What holds of a directory whenever it holds of its children, and of all else, holds of every node. -/
theorem induction {motive : FileNode → Prop} (file : ∀ bytes, motive (.file bytes))
    (link : ∀ target, motive (.link target)) (pipe : motive .pipe)
    (directory : ∀ listable children, (∀ e ∈ children, motive e.2) → motive (.directory listable children)) :
    (n : FileNode) → motive n
  | .file bytes => file bytes
  | .link target => link target
  | .pipe => pipe
  | .directory listable children =>
    directory listable children fun e _ => induction file link pipe directory e.2
termination_by n => sizeOf n
decreasing_by
  have hsize := List.sizeOf_lt_of_mem ‹e ∈ children›
  obtain ⟨name, c⟩ := e
  simp only [FileNode.directory.sizeOf_spec, Prod.mk.sizeOf_spec] at hsize ⊢
  omega

/-- Children are readable if each is and no name has a slash. -/
theorem allReadable_iff : allReadable children ↔ ∀ e ∈ children, '/' ∉ e.1.toList ∧ e.2.isReadable := by
  induction children with
  | nil => simp [allReadable]
  | cons e rest ih => simp [allReadable, ih, and_assoc]

/-- A directory is readable if it can be listed, its names differ and its children are readable. -/
theorem isReadable_directory {listable : Bool} : (directory listable children).isReadable ↔
    listable = true ∧ (children.map (·.1)).Nodup ∧ ∀ e ∈ children, '/' ∉ e.1.toList ∧ e.2.isReadable := by
  simp [isReadable, allReadable_iff, and_assoc]

/-- Nothing is below what has no children. -/
theorem at?_of_children_nil (h : n.children = []) {rest : List String} : n.at? rest = some m ↔ rest = [] ∧ n = m := by
  cases rest with
  | nil => simp [at?]
  | cons name rest => simp [at?, child?, h]

/-- A way down a directory goes through a child. -/
theorem at?_directory {listable : Bool} {rest : List String} :
    (directory listable children).at? (name :: rest) = some m ↔
      ∃ c, children.lookup name = some c ∧ c.at? rest = some m :=
  Option.bind_eq_some_iff

/-- No name on the way down has a slash. -/
theorem not_mem_of_at? {names : List String} (hn : n.isReadable) (h : n.at? names = some m) :
    ∀ x ∈ names, '/' ∉ x.toList := by
  induction names generalizing n with
  | nil => simp
  | cons name rest ih =>
    obtain ⟨c, hchild, hrest⟩ := Option.bind_eq_some_iff.mp h
    cases n with
    | directory listable children =>
      have hreadable := (isReadable_directory.mp hn).2.2 _ (Keyed.mem_of_lookup hchild)
      exact List.forall_mem_cons.mpr ⟨hreadable.1, ih hreadable.2 hrest⟩
    | _ => cases hchild

end FileNode

namespace Repository

/-- The path of a place. -/
def pathOf (place : List String) : String :=
  if place.isEmpty then rootPath else Text.join "/" place

/-- Nothing on the way to a place, itself included, is excluded. -/
def Selection.Passes (s : Selection) (place : List String) : Prop :=
  ∀ way name, way ++ [name] <+: place → s.isExcluded (pathOf (way ++ [name])) name = false

/-- Nothing on the way to a file is excluded, and the file is included. -/
def Selection.Selects (s : Selection) (place : List String) : Prop :=
  s.Passes place ∧ ∀ way name, place = way ++ [name] → s.isIncluded (pathOf place) name = true

/-- A file as a tree lists it. -/
structure ListedFile where
  name : String
  path : String
  ending : String
  size : Nat

/-- The place that the path of a listed file stands for. -/
def ListedFile.place (f : ListedFile) : List String :=
  Text.split '/' f.path

/-- How the file at a place is listed. -/
def ListedFile.of (place : List String) (bytes : List UInt8) : ListedFile :=
  let name := place.getLast?.getD ""
  { name := name, path := pathOf place, ending := Path.suffixOf name, size := bytes.length }

namespace FileTree

mutual
/-- The files that a tree lists. -/
def files : FileTree → List ListedFile
  | .file name path ending size => [⟨name, path, ending, size⟩]
  | .directory _ _ below => filesIn below

/-- The files that trees list. -/
def filesIn : List FileTree → List ListedFile
  | [] => []
  | t :: ts => t.files ++ filesIn ts
end

mutual
/-- A tree and all trees inside it. -/
def parts : FileTree → List FileTree
  | .file name path ending size => [.file name path ending size]
  | .directory name path below => .directory name path below :: partsIn below

/-- Trees and all trees inside them. -/
def partsIn : List FileTree → List FileTree
  | [] => []
  | t :: ts => t.parts ++ partsIn ts
end

/-- The trees inside a tree. -/
def inside : FileTree → List FileTree
  | .file .. => []
  | .directory _ _ below => partsIn below

/-- The files of trees are those of each. -/
theorem filesIn_eq (ts : List FileTree) : filesIn ts = ts.flatMap files := by
  induction ts with
  | nil => rfl
  | cons t ts ih => rw [filesIn, ih, List.flatMap_cons]

/-- A tree is a part of itself. -/
theorem self_mem_parts (t : FileTree) : t ∈ t.parts := by
  cases t <;> simp [parts]

/-- The parts of trees are those of each. -/
theorem partsIn_eq (ts : List FileTree) : partsIn ts = ts.flatMap parts := by
  induction ts with
  | nil => rfl
  | cons t ts ih => rw [partsIn, ih, List.flatMap_cons]

/-- Trees whose parts all have files have files. -/
theorem filesIn_ne_nil {ts : List FileTree} (hne : ts ≠ []) (h : ∀ t ∈ partsIn ts, t.files ≠ []) :
    filesIn ts ≠ [] := by
  cases ts with
  | nil => contradiction
  | cons t ts =>
    have hfirst : t.files ≠ [] := h t (List.mem_append_left _ (self_mem_parts t))
    simp [filesIn, hfirst]

mutual
/-- A tree counts its files. -/
theorem count_eq : (t : FileTree) → t.count = t.files.length
  | .file .. => rfl
  | .directory _ _ below => countAll_eq below

/-- Trees count their files. -/
theorem countAll_eq : (ts : List FileTree) → countAll ts = (filesIn ts).length
  | [] => rfl
  | t :: ts => by rw [countAll, filesIn, List.length_append, count_eq t, countAll_eq ts]
end

end FileTree

mutual
/-- The code files of a tree are among its files. -/
theorem codeFiles_eq : (t : FileTree) →
    codeFiles t = t.files.filterMap fun f => codeFile? f.path f.name f.ending
  | .file name path ending size => by
    cases h : codeFile? path name ending <;> simp [codeFiles, FileTree.files, h]
  | .directory _ _ below => codeFilesIn_eq below

/-- The code files of trees are among their files. -/
theorem codeFilesIn_eq : (ts : List FileTree) →
    codeFilesIn ts = (FileTree.filesIn ts).filterMap fun f => codeFile? f.path f.name f.ending
  | [] => rfl
  | t :: ts => by
    rw [codeFilesIn, FileTree.filesIn, List.filterMap_append, codeFiles_eq t, codeFilesIn_eq ts]
end

open FileTree (filesIn filesIn_eq partsIn partsIn_eq)

section

variable {s : Selection} {way place : List String} {name : String}

/-- The root passes. -/
theorem passes_nil (s : Selection) : s.Passes [] := by
  intro way name h
  simp at h

/-- What is before a place is passed on the way to it. -/
theorem Selection.Passes.of_append {rest : List String} (h : s.Passes (place ++ rest)) : s.Passes place :=
  fun way name hway => h way name (hway.trans (List.prefix_append place rest))

/-- A way that passes goes on unless what follows is excluded. -/
theorem passes_concat (hway : s.Passes way) :
    s.Passes (way ++ [name]) ↔ s.isExcluded (pathOf (way ++ [name])) name = false := by
  constructor
  · intro h
    exact h way name List.prefix_rfl
  · intro h start last hstart
    rcases List.prefix_concat_iff.mp hstart with heq | hbefore
    · obtain ⟨rfl, rfl⟩ := List.append_singleton_inj.mp heq
      exact h
    · exact hway start last hbefore

/-- A path joins the names of a place. -/
theorem pathOf_of_ne_nil (hne : place ≠ []) : pathOf place = Text.join "/" place := by
  simp [pathOf, hne]

/-- On such a way a file is selected if it is included and not excluded. -/
theorem selects_concat (hway : s.Passes way) :
    s.Selects (way ++ [name]) ↔ s.isExcluded (pathOf (way ++ [name])) name = false ∧
      s.isIncluded (pathOf (way ++ [name])) name = true := by
  rw [Selection.Selects, passes_concat hway]
  refine and_congr_right fun _ => ⟨fun h => h way name rfl, ?_⟩
  intro h start last heq
  obtain ⟨rfl, rfl⟩ := List.append_singleton_inj.mp heq
  exact h

/-- Of the places that are passed only the root has the path of the root. -/
theorem pathOf_ne_rootPath (hplace : s.Passes place) (hne : place ≠ []) : pathOf place ≠ rootPath := by
  intro heq
  rw [pathOf_of_ne_nil hne] at heq
  match place, hne with
  | [name], _ =>
    have hname : name = rootPath := by simpa [Text.join] using heq
    have hpassed : s.isExcluded (pathOf [name]) name = false := hplace [] name List.prefix_rfl
    rw [Selection.isExcluded, hname] at hpassed
    simp [rootPath, Text.begins] at hpassed
  | first :: second :: rest, _ =>
    have hslash : '/' ∈ (Text.join "/" (first :: second :: rest)).toList := by simp [Text.join]
    rw [heq] at hslash
    simp [rootPath] at hslash

/-- The path of a child is that of its place. -/
theorem childPath_pathOf (hplace : s.Passes place) (name : String) :
    childPath (pathOf place) name = pathOf (place ++ [name]) := by
  by_cases hne : place = []
  · subst hne
    simp [childPath, pathOf, Text.join]
  · have hends : Text.join "/" (place ++ [name]) = Text.join "/" place ++ "/" ++ name := by
      rw [Text.join, String.intercalate_append_of_ne_nil hne (List.cons_ne_nil name []), String.intercalate_singleton]
      rfl
    rw [childPath, if_neg (pathOf_ne_rootPath hplace hne), pathOf_of_ne_nil hne,
      pathOf_of_ne_nil (List.append_ne_nil_of_left_ne_nil hne [name]), hends]

/-- The path of a place with names that hold no slash stands for the place. -/
theorem place_of {bytes : List UInt8} (hne : place ≠ []) (h : ∀ x ∈ place, '/' ∉ x.toList) :
    (ListedFile.of place bytes).place = place := by
  rw [ListedFile.place, ListedFile.of, pathOf_of_ne_nil hne]
  exact Text.split_join hne h

/-- Sorting by name keeps the files. -/
theorem filesIn_byName (ts : List FileTree) : (filesIn (byName ts)).Perm (filesIn ts) := by
  rw [filesIn_eq, filesIn_eq]
  exact (List.mergeSort_perm ts _).flatMap_right _

/-- Sorting by name keeps the parts. -/
theorem mem_partsIn_byName {ts : List FileTree} {d : FileTree} : d ∈ partsIn (byName ts) ↔ d ∈ partsIn ts := by
  simp [partsIn_eq, byName]

/-- The trees of a directory are those of its children. -/
theorem treesIn_eq (hplace : s.Passes place) (children : List (String × FileNode)) :
    treesIn s (pathOf place) children =
      children.flatMap fun e => (treeAt s (pathOf (place ++ [e.1])) e.1 e.2).toList := by
  induction children with
  | nil => rw [treesIn, List.flatMap_nil]
  | cons e rest ih => rw [treesIn, ih, childPath_pathOf hplace, List.flatMap_cons]

/-- The files of a directory are those of its children. -/
theorem filesIn_treesIn (hplace : s.Passes place) (children : List (String × FileNode)) :
    filesIn (treesIn s (pathOf place) children) = children.flatMap fun e =>
      filesIn (treeAt s (pathOf (place ++ [e.1])) e.1 e.2).toList := by
  simp only [filesIn_eq, treesIn_eq hplace, List.flatMap_assoc]

/-- The parts of a directory are those of its children. -/
theorem mem_partsIn_treesIn (hplace : s.Passes place) {children : List (String × FileNode)} {d : FileTree} :
    d ∈ partsIn (treesIn s (pathOf place) children) ↔
      ∃ e ∈ children, d ∈ partsIn (treeAt s (pathOf (place ++ [e.1])) e.1 e.2).toList := by
  simp only [partsIn_eq, treesIn_eq hplace, List.flatMap_assoc, List.mem_flatMap]

/-- A file is listed if it is selected. -/
theorem files_file {path name : String} {bytes : List UInt8} :
    filesIn (treeAt s path name (.file bytes)).toList =
      if s.isExcluded path name || !s.isIncluded path name then []
      else [⟨name, path, Path.suffixOf name, bytes.length⟩] := by
  rw [treeAt]
  split <;> rfl

/-- A directory lists what is in it unless it is excluded. -/
theorem files_directory {path name : String} {children : List (String × FileNode)} :
    (filesIn (treeAt s path name (.directory true children)).toList).Perm
      (if s.isExcluded path name then [] else filesIn (treesIn s path children)) := by
  rw [treeAt]
  cases s.isExcluded path name with
  | true => exact List.Perm.nil
  | false =>
    have hsorted := filesIn_byName (treesIn s path children)
    -- A directory is left out only if nothing is listed below it.
    cases hpruned : (byName (treesIn s path children)).isEmpty && path != rootPath with
    | true =>
      have hbelow : byName (treesIn s path children) = [] := by
        simpa using (Bool.and_eq_true_iff.mp hpruned).1
      rw [hbelow] at hsorted
      simpa [hpruned, filesIn] using hsorted
    | false => simpa [hpruned, filesIn, FileTree.files] using hsorted

/-- A file is listed at its place if it is selected. -/
theorem mem_files_file {f : ListedFile} {bytes : List UInt8} (hway : s.Passes way) :
    f ∈ filesIn (treeAt s (pathOf (way ++ [name])) name (.file bytes)).toList ↔
      s.Selects (way ++ [name]) ∧ f = ListedFile.of (way ++ [name]) bytes := by
  rw [files_file, selects_concat hway]
  cases s.isExcluded (pathOf (way ++ [name])) name <;>
    cases s.isIncluded (pathOf (way ++ [name])) name <;> simp [ListedFile.of]

/-- A directory lists what is in it if it passes. -/
theorem mem_files_directory {f : ListedFile} {children : List (String × FileNode)}
    (hway : s.Passes way) :
    f ∈ filesIn
        (treeAt s (pathOf (way ++ [name])) name (.directory true children)).toList ↔
      s.Passes (way ++ [name]) ∧
        f ∈ filesIn (treesIn s (pathOf (way ++ [name])) children) := by
  rw [files_directory.mem_iff, passes_concat hway]
  cases s.isExcluded (pathOf (way ++ [name])) name <;> simp

/-- A file is the selected one at the end of names that lead on from the node at a place. -/
def IsSelected (s : Selection) (place : List String) (n : FileNode) (f : ListedFile) : Prop :=
  ∃ rest bytes, n.at? rest = some (.file bytes) ∧ s.Selects (place ++ rest) ∧ f = .of (place ++ rest) bytes

/-- The trees in a directory list the selected files below it, if the tree of each child does. -/
theorem mem_files_treesIn {f : ListedFile} {children : List (String × FileNode)} (hplace : s.Passes place)
    (hnodup : (children.map (·.1)).Nodup)
    (hchild : ∀ e ∈ children,
      f ∈ filesIn (treeAt s (pathOf (place ++ [e.1])) e.1 e.2).toList ↔ IsSelected s (place ++ [e.1]) e.2 f) :
    f ∈ filesIn (treesIn s (pathOf place) children) ↔ IsSelected s place (.directory true children) f := by
  rw [filesIn_treesIn hplace, List.mem_flatMap]
  constructor
  · rintro ⟨e, he, hf⟩
    obtain ⟨rest, bytes, hat, hselects, rfl⟩ := (hchild e he).mp hf
    have hlookup := (Keyed.lookup_eq_some_iff hnodup).mpr he
    rw [← List.append_cons] at hselects ⊢
    exact ⟨e.1 :: rest, bytes, FileNode.at?_directory.mpr ⟨e.2, hlookup, hat⟩, hselects, rfl⟩
  · rintro ⟨names, bytes, hat, hselects, hf⟩
    cases names with
    | nil => cases hat
    | cons first rest =>
      obtain ⟨c, hlookup, hat⟩ := FileNode.at?_directory.mp hat
      have hmem := (Keyed.lookup_eq_some_iff hnodup).mp hlookup
      rw [List.append_cons place] at hselects hf
      exact ⟨(first, c), hmem, (hchild _ hmem).mpr ⟨rest, bytes, hat, hselects, hf⟩⟩

/-- What is listed below a place are the selected files there. -/
theorem mem_files_treeAt {f : ListedFile} {n : FileNode} (hway : s.Passes way) (hn : n.isReadable) :
    f ∈ filesIn (treeAt s (pathOf (way ++ [name])) name n).toList ↔ IsSelected s (way ++ [name]) n f := by
  induction n using FileNode.induction generalizing way name with
  | file bytes =>
    rw [mem_files_file hway]
    constructor
    · intro h
      exact ⟨[], bytes, rfl, by simpa using h⟩
    · rintro ⟨rest, bytes', hat, h⟩
      obtain ⟨rfl, hfile⟩ := (FileNode.at?_of_children_nil rfl).mp hat
      obtain rfl := FileNode.file.inj hfile
      simpa using h
  | directory listable children ih =>
    obtain ⟨rfl, hnodup, hchildren⟩ := FileNode.isReadable_directory.mp hn
    have hbelow (hpasses : s.Passes (way ++ [name])) := mem_files_treesIn (f := f) hpasses hnodup
      fun e he => ih e he hpasses (hchildren e he).2
    rw [mem_files_directory hway]
    constructor
    · rintro ⟨hpasses, hf⟩
      exact (hbelow hpasses).mp hf
    · intro h
      obtain ⟨_, _, _, hselects, _⟩ := id h
      exact ⟨hselects.1.of_append, (hbelow hselects.1.of_append).mpr h⟩
  | link target =>
    have hchildren : (FileNode.link target).children = [] := rfl
    simp [treeAt, filesIn, IsSelected, FileNode.at?_of_children_nil hchildren]
  | pipe =>
    have hchildren : FileNode.pipe.children = [] := rfl
    simp [treeAt, filesIn, IsSelected, FileNode.at?_of_children_nil hchildren]

/-- What is listed below a place stands there. -/
theorem place_of_mem_treeAt {f : ListedFile} {n : FileNode} (hway : s.Passes way)
    (hslash : ∀ x ∈ way ++ [name], '/' ∉ x.toList) (hn : n.isReadable)
    (hf : f ∈ filesIn (treeAt s (pathOf (way ++ [name])) name n).toList) : ∃ rest, f.place = way ++ name :: rest := by
  obtain ⟨rest, bytes, hat, -, rfl⟩ := (mem_files_treeAt hway hn).mp hf
  have hwhole : ∀ x ∈ way ++ [name] ++ rest, '/' ∉ x.toList := by
    intro x hx
    rcases List.mem_append.mp hx with hx | hx
    · exact hslash x hx
    · exact FileNode.not_mem_of_at? hn hat x hx
  refine ⟨rest, ?_⟩
  rw [place_of (by simp) hwhole, ← List.append_cons]

/-- The trees of a directory list no place twice, if the tree of each child lists none twice. -/
theorem nodup_places_treesIn {children : List (String × FileNode)} (hplace : s.Passes place)
    (hslash : ∀ x ∈ place, '/' ∉ x.toList) (hn : (FileNode.directory true children).isReadable)
    (hchild : ∀ e ∈ children, (∀ x ∈ place ++ [e.1], '/' ∉ x.toList) →
      ((filesIn (treeAt s (pathOf (place ++ [e.1])) e.1 e.2).toList).map ListedFile.place).Nodup) :
    ((filesIn (treesIn s (pathOf place) children)).map ListedFile.place).Nodup := by
  obtain ⟨-, hnodup, hchildren⟩ := FileNode.isReadable_directory.mp hn
  have hslashes : ∀ e ∈ children, ∀ x ∈ place ++ [e.1], '/' ∉ x.toList := by
    intro e he
    simpa [or_imp, forall_and] using And.intro hslash (hchildren e he).1
  rw [filesIn_treesIn hplace, List.map_flatMap, List.nodup_flatMap]
  refine ⟨fun e he => hchild e he (hslashes e he), ?_⟩
  refine (List.pairwise_map.mp hnodup).imp_of_mem fun {e e'} he he' hne p hp hq => ?_
  obtain ⟨f, hf, rfl⟩ := List.mem_map.mp hp
  obtain ⟨f', hf', hpq⟩ := List.mem_map.mp hq
  obtain ⟨rest, hrest⟩ := place_of_mem_treeAt hplace (hslashes e he) (hchildren e he).2 hf
  obtain ⟨rest', hrest'⟩ := place_of_mem_treeAt hplace (hslashes e' he') (hchildren e' he').2 hf'
  rw [hrest, hrest', List.append_cancel_left_eq] at hpq
  exact hne (List.cons.inj hpq).1.symm

/-- No place is listed twice. -/
theorem nodup_places_treeAt {n : FileNode} (hway : s.Passes way) (hslash : ∀ x ∈ way ++ [name], '/' ∉ x.toList)
    (hn : n.isReadable) :
    ((filesIn (treeAt s (pathOf (way ++ [name])) name n).toList).map ListedFile.place).Nodup := by
  induction n using FileNode.induction generalizing way name with
  | file bytes =>
    rw [files_file]
    split <;> simp
  | directory listable children ih =>
    obtain ⟨rfl, -, hchildren⟩ := FileNode.isReadable_directory.mp hn
    rw [(files_directory.map ListedFile.place).nodup_iff]
    split
    · exact List.nodup_nil
    · rename_i hexcluded
      have hpasses : s.Passes (way ++ [name]) := (passes_concat hway).mpr (by simpa using hexcluded)
      exact nodup_places_treesIn hpasses hslash hn fun e he hslashes => ih e he hpasses hslashes (hchildren e he).2
  | _ => exact List.nodup_nil

/-- Inside the tree of a directory are the tree itself, which is not empty, and the trees of its children. -/
theorem mem_parts_directory {path name : String} {listable : Bool} {d : FileTree}
    {children : List (String × FileNode)}
    (hpath : s.isExcluded path name = false → path ≠ rootPath)
    (hd : d ∈ partsIn (treeAt s path name (.directory listable children)).toList) :
    s.isExcluded path name = false ∧ byName (treesIn s path children) ≠ [] ∧
      (d = .directory name path (byName (treesIn s path children)) ∨
        d ∈ partsIn (byName (treesIn s path children))) := by
  cases hexcluded : s.isExcluded path name with
  | true => simp [treeAt, hexcluded, partsIn] at hd
  | false =>
    have hbelow := hpath hexcluded
    cases listable with
    | false => simp [treeAt, hexcluded, hbelow, partsIn] at hd
    | true =>
      by_cases hempty : byName (treesIn s path children) = []
      · simp [treeAt, hexcluded, hbelow, hempty, partsIn] at hd
      · refine ⟨rfl, hempty, ?_⟩
        simpa [treeAt, hexcluded, hempty, partsIn, FileTree.parts] using hd

/-- Every part of a listing has files. -/
theorem files_ne_nil_of_mem_parts {n : FileNode} {d : FileTree} (hway : s.Passes way)
    (hd : d ∈ partsIn (treeAt s (pathOf (way ++ [name])) name n).toList) : d.files ≠ [] := by
  induction n using FileNode.induction generalizing way name d with
  | file bytes =>
    rw [treeAt] at hd
    split at hd
    · simp [partsIn] at hd
    · have hfile : d = .file name (pathOf (way ++ [name])) (Path.suffixOf name) bytes.length := by
        simpa [partsIn, FileTree.parts] using hd
      simp [hfile, FileTree.files]
  | directory listable children ih =>
    obtain ⟨hexcluded, hbelow, hd⟩ := mem_parts_directory
      (fun h => pathOf_ne_rootPath ((passes_concat hway).mpr h) (by simp)) hd
    have hpasses : s.Passes (way ++ [name]) := (passes_concat hway).mpr hexcluded
    have hinside : ∀ d ∈ partsIn (byName (treesIn s (pathOf (way ++ [name])) children)),
        d.files ≠ [] := by
      intro d hd
      obtain ⟨e, he, hd⟩ := (mem_partsIn_treesIn hpasses).mp (mem_partsIn_byName.mp hd)
      exact ih e he hpasses hd
    rcases hd with rfl | hd
    · exact FileTree.filesIn_ne_nil hbelow hinside
    · exact hinside d hd
  | _ => simp [treeAt, partsIn] at hd

end

section

variable {s : Selection} {name : String} {children : List (String × FileNode)}

/-- The tree of a root that is not excluded. -/
theorem fileTree_directory (hname : s.isExcluded rootPath name = false) :
    fileTree s name (.directory true children) =
      some (.directory name rootPath (byName (treesIn s rootPath children))) := by
  simp [fileTree, treeAt, hname]

/-- The root lists the files that are selected below it. -/
theorem mem_files_root {f : ListedFile} (hroot : (FileNode.directory true children).isReadable) :
    f ∈ filesIn (byName (treesIn s rootPath children)) ↔
      ∃ place bytes, (FileNode.directory true children).at? place = some (.file bytes) ∧
        s.Selects place ∧ f.place = place ∧ f = .of place bytes := by
  obtain ⟨-, hnodup, hchildren⟩ := FileNode.isReadable_directory.mp hroot
  rw [(filesIn_byName _).mem_iff]
  refine (mem_files_treesIn (passes_nil s) hnodup
    fun e he => mem_files_treeAt (passes_nil s) (hchildren e he).2).trans ⟨?_, ?_⟩
  · rintro ⟨place, bytes, hat, hselects, rfl⟩
    have hne : place ≠ [] := by
      rintro rfl
      cases hat
    exact ⟨place, bytes, hat, hselects, place_of hne (FileNode.not_mem_of_at? hroot hat), rfl⟩
  · rintro ⟨place, bytes, hat, hselects, -, rfl⟩
    exact ⟨place, bytes, hat, hselects, rfl⟩

end

/-- A tree lists the selected files of a repository: it lists each of them once, lists no other, tells
what is there, and has no directory without files but the root. -/
structure FileTree.Lists (t : FileTree) (s : Selection) (root : FileNode) : Prop where
  once : (t.files.map ListedFile.place).Nodup
  selected : ∀ place, place ∈ t.files.map ListedFile.place ↔
    (∃ bytes, root.at? place = some (.file bytes)) ∧ s.Selects place
  described : ∀ f ∈ t.files, ∃ bytes, root.at? f.place = some (.file bytes) ∧ f = .of f.place bytes
  occupied : ∀ d ∈ t.inside, d.files ≠ []

/-- The tree of a directory lists it. -/
theorem lists_directory {s : Selection} {name : String} {children : List (String × FileNode)}
    (hroot : (FileNode.directory true children).isReadable) :
    (FileTree.directory name rootPath (byName (treesIn s rootPath children))).Lists s
      (.directory true children) where
  once := by
    obtain ⟨-, -, hchildren⟩ := FileNode.isReadable_directory.mp hroot
    have hperm := (filesIn_byName (treesIn s rootPath children)).map ListedFile.place
    exact hperm.nodup_iff.mpr (nodup_places_treesIn (passes_nil s) (by simp) hroot
      fun e he hslash => nodup_places_treeAt (passes_nil s) hslash (hchildren e he).2)
  selected := by
    intro place
    rw [FileTree.files, List.mem_map]
    constructor
    · rintro ⟨f, hf, rfl⟩
      obtain ⟨place, bytes, hat, hselects, hplace, -⟩ := (mem_files_root hroot).mp hf
      exact ⟨⟨bytes, hplace ▸ hat⟩, hplace ▸ hselects⟩
    · rintro ⟨⟨bytes, hat⟩, hselects⟩
      have hne : place ≠ [] := by
        rintro rfl
        cases hat
      have hplace : (ListedFile.of place bytes).place = place :=
        place_of hne (FileNode.not_mem_of_at? hroot hat)
      exact ⟨.of place bytes, (mem_files_root hroot).mpr ⟨place, bytes, hat, hselects, hplace, rfl⟩,
        hplace⟩
  described := by
    intro f hf
    obtain ⟨place, bytes, hat, -, rfl, heq⟩ := (mem_files_root hroot).mp hf
    exact ⟨bytes, hat, heq⟩
  occupied := by
    intro d hd
    obtain ⟨e, -, hd⟩ := (mem_partsIn_treesIn (passes_nil s)).mp (mem_partsIn_byName.mp hd)
    exact files_ne_nil_of_mem_parts (passes_nil s) hd

/-- Languages are known by endings. -/
theorem languageOf?_eq_some_iff {ending language : String} :
    languageOf? ending = some language ↔ (ending, language) ∈ languages :=
  Keyed.lookup_eq_some_iff (by decide)

/-- A code file has an ending of a language, in lower case. -/
theorem mem_codeFiles {t : FileTree} {c : CodeFile} :
    c ∈ codeFiles t ↔ ∃ f ∈ t.files, ∃ language, (Text.lower f.ending, language) ∈ languages ∧
      c = ⟨f.path, f.name, Text.lower f.ending, language⟩ := by
  simp only [codeFiles_eq, List.mem_filterMap, codeFile?, Option.map_eq_some_iff,
    languageOf?_eq_some_iff, eq_comm (a := c)]

/-- No path is that of two code files. -/
theorem nodup_codeFiles {t : FileTree} (h : (t.files.map ListedFile.place).Nodup) :
    ((codeFiles t).map CodeFile.path).Nodup := by
  have hfiles : t.files.Pairwise fun f f' => f.path ≠ f'.path :=
    (List.pairwise_map.mp h).imp fun hne heq => hne (congrArg (Text.split '/') heq)
  rw [codeFiles_eq, List.nodup_iff_pairwise_ne, List.pairwise_map, List.pairwise_filterMap]
  refine hfiles.imp fun {f f'} hne c hc c' hc' => ?_
  obtain ⟨_, -, rfl⟩ := Option.map_eq_some_iff.mp hc
  obtain ⟨_, -, rfl⟩ := Option.map_eq_some_iff.mp hc'
  exact hne

/-- Where all directories can be listed and the root is not excluded, the file tree lists the selected files,
whose number is told, and among them those of code. -/
theorem selected_files_listed {s : Selection} {name : String} {root : FileNode}
    (hroot : root.isDirectory) (hreadable : root.isReadable)
    (hname : s.isExcluded rootPath name = false) :
    ∃ t, fileTree s name root = some t ∧ t.Lists s root ∧
      t.summary.lookup "total_files" = some (.int t.files.length) ∧
      ((codeFiles t).map CodeFile.path).Nodup ∧
      ∀ c, c ∈ codeFiles t ↔ ∃ f ∈ t.files, ∃ language,
        (Text.lower f.ending, language) ∈ languages ∧
          c = ⟨f.path, f.name, Text.lower f.ending, language⟩ := by
  cases root with
  | directory listable children =>
    obtain rfl := (FileNode.isReadable_directory.mp hreadable).1
    have hlists : (FileTree.directory name rootPath (byName (treesIn s rootPath children))).Lists s
        (.directory true children) := lists_directory hreadable
    refine ⟨_, fileTree_directory hname, hlists, ?_, nodup_codeFiles hlists.once, fun c => mem_codeFiles⟩
    rw [← FileTree.count_eq]
    rfl
  | _ => cases hroot

/-- A repository with a selected file, an excluded one, an excluded directory, and a directory in which
nothing is included. -/
def workshop : FileNode :=
  .directory true [
    ("src", .directory true [("main.py", .file [35, 10]), ("logo.png", .file [])]),
    ("tests", .directory true [("main.py", .file [])]),
    ("notes", .directory true [("todo.bin", .file [])])]

/-- The files of the workshop are listed. -/
theorem workshop_files_listed :
    workshop.isDirectory ∧ workshop.isReadable ∧
      (Selection.of none none).isExcluded rootPath "workshop" = false ∧
      ∃ t, fileTree (.of none none) "workshop" workshop = some t ∧ t.Lists (.of none none) workshop := by
  have hreadable : workshop.isReadable := by decide +kernel
  have hname : (Selection.of none none).isExcluded rootPath "workshop" = false := by decide +kernel
  obtain ⟨t, htree, hlists, -⟩ := selected_files_listed rfl hreadable hname
  exact ⟨rfl, hreadable, hname, t, htree, hlists⟩

end Repository

end RepoAtlas
