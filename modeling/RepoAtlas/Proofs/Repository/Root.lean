import RepoAtlas.Proofs.Files.Reading
import RepoAtlas.Proofs.Text.Cutting
import RepoAtlas.Repository.Survey

/-!
# Repositories whose own name excludes them

The root of a repository is judged by the patterns like any directory in it, so its own name can exclude it as a
whole. The usual patterns never match the path of the root.
-/

namespace RepoAtlas.Repository

open CallGraph

variable {name pattern : String}

/-- A pattern excludes the root of a repository with the given name: it matches the name or the path of
the root, or is made of slashes with a dot before them at most. -/
def BarsRoot (name pattern : String) : Prop :=
  Text.globMatches pattern name = true ∨ Text.globMatches pattern rootPath = true ∨
    ∃ n, pattern.toList = List.replicate (n + 1) '/' ∨
      pattern.toList = '.' :: List.replicate (n + 1) '/'

/-- A repository with the given name is excluded as a whole, by its name or by an added pattern. -/
def Barred (added : List String) (name : String) : Prop :=
  Text.begins name "." = true ∨ (∃ p ∈ usuallyExcluded, Text.globMatches p name = true) ∨
    ∃ p ∈ added, BarsRoot name p

/-- The path of the root begins with a trimmed pattern only if that is empty or a dot. -/
theorem begins_trimmed_iff :
    (Text.ends pattern "/" = true ∧
      Text.begins rootPath (String.ofList (Text.trimEnd (· = '/') pattern.toList)) = true) ↔
      ∃ n, pattern.toList = List.replicate (n + 1) '/' ∨
        pattern.toList = '.' :: List.replicate (n + 1) '/' := by
  rw [Text.ends, Text.begins, String.toList_ofList, List.isSuffixOf_iff_suffix, List.isPrefixOf_iff_prefix]
  constructor
  · rintro ⟨hends, htrimmed⟩
    obtain ⟨n, hn⟩ := Text.exists_replicate_of_trimEnd '/' pattern.toList
    have hstart : Text.trimEnd (· = '/') pattern.toList = [] ∨
        Text.trimEnd (· = '/') pattern.toList = ['.'] := by
      simpa [List.prefix_cons_iff, rootPath] using htrimmed
    cases n with
    | zero =>
      -- Without a slash at its end the pattern is empty or a dot, and neither ends in a slash.
      rcases hstart with hstart | hstart <;> rw [hn, hstart] at hends <;>
        exact absurd hends (by decide)
    | succ n =>
      refine ⟨n, hstart.imp (fun h => ?_) fun h => ?_⟩ <;> rw [hn, h] <;> rfl
  · have hends (n : Nat) : ("/".toList : List Char) <:+ List.replicate (n + 1) '/' :=
      ⟨List.replicate n '/', List.replicate_succ'.symm⟩
    have htrim (n : Nat) : Text.trimEnd (· = '/') (List.replicate (n + 1) '/') = [] :=
      Text.trimEnd_replicate (by simp) (n + 1)
    rintro ⟨n, hn | hn⟩
    · rw [hn, htrim]
      exact ⟨hends n, List.nil_prefix⟩
    · rw [hn]
      have hdot : Text.trimEnd (· = '/') ('.' :: List.replicate (n + 1) '/') = ['.'] := by
        rw [← List.nil_append ('.' :: _), Text.trimEnd_append_cons [] _ (by decide), htrim]
        rfl
      rw [hdot]
      exact ⟨(hends n).trans (List.suffix_cons '.' _), List.prefix_rfl⟩

/-- A pattern excludes the root if it bars it. -/
theorem excludes_rootPath_iff : excludes rootPath name pattern = true ↔ BarsRoot name pattern := by
  have hbegins : Text.begins rootPath (pattern ++ "/") = false := by
    rw [Text.begins, Bool.eq_false_iff, Ne, List.isPrefixOf_iff_prefix]
    intro hprefix
    have hslash : '/' ∈ rootPath.toList := hprefix.subset (by simp)
    exact absurd hslash (by decide)
  have hself : rootPath = pattern → Text.globMatches pattern rootPath = true := by
    rintro rfl
    decide
  have hparts : (Text.split '/' rootPath).contains pattern = true ↔ rootPath = pattern := by
    have hsplit : Text.split '/' rootPath = [rootPath] := by decide
    rw [hsplit]
    simp [eq_comm]
  simp only [excludes, Bool.or_eq_true, Bool.and_eq_true, begins_trimmed_iff, hbegins, hparts,
    decide_eq_true_eq, Bool.false_eq_true, or_false, BarsRoot]
  constructor
  · rintro ((((h | h) | h) | h) | h)
    · exact Or.inr (Or.inl h)
    · exact Or.inl h
    · exact Or.inr (Or.inr h)
    · exact Or.inr (Or.inl (hself h))
    · exact Or.inr (Or.inl (hself h))
  · rintro (h | h | h)
    · exact Or.inl (Or.inl (Or.inl (Or.inr h)))
    · exact Or.inl (Or.inl (Or.inl (Or.inl h)))
    · exact Or.inl (Or.inl (Or.inr h))

/-- None of the usual patterns matches the path of the root. -/
theorem barsRoot_of_usual (h : pattern ∈ usuallyExcluded) :
    BarsRoot name pattern ↔ Text.globMatches pattern name = true := by
  have hall : usuallyExcluded.all fun p => !Text.globMatches p rootPath &&
      !(Text.ends p "/" &&
        Text.begins rootPath (String.ofList (Text.trimEnd (· = '/') p.toList))) := by
    decide +kernel
  have hpattern := List.all_eq_true.mp hall pattern h
  rw [Bool.and_eq_true, Bool.not_eq_true', Bool.not_eq_true', Bool.eq_false_iff, Bool.eq_false_iff, Ne,
    Ne, Bool.and_eq_true, begins_trimmed_iff] at hpattern
  rw [BarsRoot, or_iff_left (not_or.mpr hpattern)]

/-- The root is excluded if it is barred. -/
theorem isExcluded_rootPath_iff (included excluded : Option (List String)) (name : String) :
    (Selection.of included excluded).isExcluded rootPath name = true ↔ Barred (excluded.getD []) name := by
  have husual : usuallyExcluded.any (excludes rootPath name) = true ↔
      ∃ p ∈ usuallyExcluded, Text.globMatches p name = true := by
    rw [List.any_eq_true]
    refine exists_congr fun p => and_congr_right fun hp => ?_
    rw [excludes_rootPath_iff, barsRoot_of_usual hp]
  have hadded : (excluded.getD []).any (excludes rootPath name) = true ↔
      ∃ p ∈ excluded.getD [], BarsRoot name p := by
    simp only [List.any_eq_true, excludes_rootPath_iff]
  rw [Selection.isExcluded, Selection.of, List.any_append, Bool.or_eq_true, Bool.or_eq_true, husual, hadded, Barred]

/-- A repository whose root is a directory has a structure if the root is not excluded. -/
theorem structureOf_directory {site : Site} {place : List String} {listable : Bool}
    {children : List (String × FileNode)} (sel : Selection)
    (hroot : lookupLink site.files site.root = .ok (place, .directory listable children)) :
    structureOf sel site =
      if sel.isExcluded rootPath (Path.name site.root) then .error .excludedRoot
      else .ok (.directory (Path.name site.root) rootPath
        (if listable then byName (treesIn sel rootPath children) else [])) := by
  have hlookup : lookup site.files site.root = .ok (place, .directory listable children) :=
    seek_of_not_link hroot rfl
  have hnode : node? site.files site.root = some (.directory listable children) := by
    rw [node?, hlookup]
  cases hexcluded : sel.isExcluded rootPath (Path.name site.root) <;>
    simp [structureOf, hnode, fileTree, treeAt, hexcluded]

/-- A repository whose root is a directory has a structure unless its name or an added pattern excludes it as
a whole. -/
theorem structure_unless_barred {site : Site} {place : List String} {listable : Bool}
    {children : List (String × FileNode)}
    (hroot : lookupLink site.files site.root = .ok (place, .directory listable children))
    (included excluded : Option (List String)) :
    ((∃ below, structureOf (.of included excluded) site =
        .ok (.directory (Path.name site.root) rootPath below)) ↔
      ¬Barred (excluded.getD []) (Path.name site.root)) ∧
    (structureOf (.of included excluded) site = .error .excludedRoot ↔
      Barred (excluded.getD []) (Path.name site.root)) := by
  rw [← isExcluded_rootPath_iff included, structureOf_directory _ hroot]
  cases (Selection.of included excluded).isExcluded rootPath (Path.name site.root) <;> simp

/-- A place with a directory that the usual patterns exclude, and one that they seem to exclude. -/
def shelf (root : String) : Site where
  toolbox := {}
  files := .directory true [("W", .directory true [
    ("tests", .directory true [("a.py", .file [])]), ("bin", .directory true [("a.py", .file [])])])]
  root := root

/-- A readable directory with a usual name for tests has no structure. -/
theorem tests_without_structure :
    lookupLink (shelf "/W/tests").files (shelf "/W/tests").root =
      .ok (["W", "tests"], .directory true [("a.py", .file [])]) ∧
    structureOf (.of none none) (shelf "/W/tests") = .error .excludedRoot := by
  have hroot : lookupLink (shelf "/W/tests").files (shelf "/W/tests").root =
      .ok (["W", "tests"], .directory true [("a.py", .file [])]) :=
    seek_of_straight? false linkLimit rfl
  have hexcluded : (Selection.of none none).isExcluded rootPath
      (Path.name (shelf "/W/tests").root) = true := by decide +kernel
  exact ⟨hroot, by rw [structureOf_directory _ hroot, if_pos hexcluded]⟩

/-- A directory is not excluded by a pattern for its name that ends in a slash, and so has a structure. -/
theorem bin_structured :
    lookupLink (shelf "/W/bin").files (shelf "/W/bin").root =
      .ok (["W", "bin"], .directory true [("a.py", .file [])]) ∧
    "bin/" ∈ usuallyExcluded ∧
    ∃ below, structureOf (.of none none) (shelf "/W/bin") = .ok (.directory "bin" "." below) := by
  have hroot : lookupLink (shelf "/W/bin").files (shelf "/W/bin").root =
      .ok (["W", "bin"], .directory true [("a.py", .file [])]) :=
    seek_of_straight? false linkLimit rfl
  have hname : Path.name (shelf "/W/bin").root = "bin" := by decide +kernel
  have hfree : ¬Barred [] "bin" := by
    rintro (hdot | hmatch | ⟨p, hp, -⟩)
    · exact absurd hdot (by decide)
    · exact absurd hmatch (by decide +kernel)
    · exact absurd hp List.not_mem_nil
  have hstructure := (structure_unless_barred hroot none none).1.mpr
  rw [hname] at hstructure
  exact ⟨hroot, by decide, hstructure hfree⟩

end RepoAtlas.Repository
