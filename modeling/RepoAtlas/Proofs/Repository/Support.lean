import RepoAtlas.Proofs.Repository.Census
import RepoAtlas.Proofs.Text.Glob

/-!
# Which repositories are supported

The endings that are counted and those that are analysed differ: some headers and sources of C++ and PHP are
counted and never included, and components of Vue are analysed and not counted.
-/

namespace RepoAtlas

namespace FileNode

/-- A file of the tree has one of the endings. -/
def HasFile (t : FileNode) (endings : List String) : Prop :=
  ∃ way name bytes, t.at? (way ++ [name]) = some (.file bytes) ∧ Path.suffixOf name ∈ endings

variable {t : FileNode} {children : List (String × FileNode)} {name : String} {q : List String}

/-- What is seen of an orderly tree is readable. -/
theorem isReadable_visible (t : FileNode) (h : t.isOrderly) : t.visible.isReadable := by
  induction t using FileNode.induction with
  | directory listable children ih =>
    obtain ⟨hnodup, hchildren⟩ := isOrderly_directory.mp h
    cases listable with
    | false => rfl
    | true =>
      rw [visible, if_pos rfl, isReadable_directory, allVisible_eq, List.map_map, List.forall_mem_map]
      exact ⟨rfl, hnodup, fun e he => ⟨(hchildren e he).2.1, ih e he (hchildren e he).2.2⟩⟩
  | _ => rfl

end FileNode

namespace Repository

open FileNode

variable {s : Selection} {x path w : String}

/-- A tree of files is made of what can be listed. -/
theorem treeAt_visible (s : Selection) (path name : String) (t : FileNode) :
    treeAt s path name t.visible = treeAt s path name t := by
  induction t using FileNode.induction generalizing path name with
  | directory listable children ih =>
    have hchildren : treesIn s path (allVisible children) = treesIn s path children := by
      clear * - ih
      induction children with
      | nil => rfl
      | cons e rest ihrest =>
        obtain ⟨he, hrest⟩ := List.forall_mem_cons.mp ih
        rw [allVisible, treesIn, treesIn, he, ihrest hrest]
    cases listable with
    | false => simp [visible, treeAt, treesIn, byName]
    | true => simp [visible, treeAt, hchildren]
  | _ => rfl

/-- A name has an ending if it ends so. -/
theorem suffixOf_eq_iff (hslash : '/' ∉ x.toList) (hdot : Text.begins x "." = false) (hw : w ≠ "")
    (hword : '.' ∉ w.toList) : Path.suffixOf x = "." ++ w ↔ ("." ++ w).toList <:+ x.toList := by
  have hname : Path.name x = x := by
    have hne : x ≠ "." := by
      rintro rfl
      exact absurd hdot (by decide)
    by_cases hx : x = ""
    · rw [hx]
      decide
    · simp [Path.name, Path.parts, Text.split_of_not_mem hslash, hx, hne]
  have hlist : ("." ++ w).toList = '.' :: w.toList := String.toList_append
  rw [Path.suffixOf, hname, Path.splitName, hlist]
  cases hstem : Text.beforeLast? '.' x with
  | none =>
    have hfree : '.' ∉ x.toList := by
      intro hmem
      have hnil : x.toList.reverse.dropWhile (· != '.') = [] := by
        unfold Text.beforeLast? at hstem
        split at hstem
        · assumption
        · cases hstem
      have hne := List.dropWhile_eq_nil_iff.mp hnil '.' (List.mem_reverse.mpr hmem)
      simp at hne
    exact ⟨fun h => by simp at h, fun h => absurd (h.subset List.mem_cons_self) hfree⟩
  | some stem =>
    have hx := Text.toList_of_beforeLast? hstem
    have hfront : stem ≠ "" := by
      rintro rfl
      simp [Text.begins, hx] at hdot
    rw [hx, Text.cons_suffix_iff hword (Text.not_mem_afterLast x), String.toList_inj]
    by_cases hext : Text.afterLast '.' x = ""
    · simp [hext, hw.symm]
    · simp [hfront, hext]

/-- The words after the dot in what is usually included. -/
def includedWords : List String :=
  usuallyIncluded.map (Text.dropFirst · 2)

/-- What is usually included are endings. -/
theorem usuallyIncluded_eq : usuallyIncluded = includedWords.map ("*." ++ ·) := by
  decide +kernel

/-- These are plain words without dots and slashes. -/
theorem includedWords_spec : ∀ w ∈ includedWords,
    w ≠ "" ∧ '.' ∉ w.toList ∧ '/' ∉ w.toList ∧ w.toList.all Text.isPlain := by
  decide +kernel

/-- What ends in a text without slashes does so from the last slash on. -/
theorem suffix_afterLast_iff {piece : List Char} (h : '/' ∉ piece) :
    piece <:+ path.toList ↔ piece <:+ (Text.afterLast '/' path).toList := by
  rw [Text.afterLast, String.toList_ofList, ← List.reverse_prefix, ← List.reverse_prefix, List.reverse_reverse]
  have hpiece : ∀ c ∈ piece.reverse, (c != '/') = true := by
    intro c hc
    have hne : c ≠ '/' := fun heq => h (heq ▸ List.mem_reverse.mp hc)
    simp [hne]
  constructor
  · rintro ⟨rest, hrest⟩
    rw [← hrest, List.takeWhile_append_of_pos hpiece]
    exact List.prefix_append _ _
  · exact fun hend => hend.trans (List.takeWhile_prefix _)

/-- A file is usually included by its ending. -/
theorem isIncluded_usual_iff (hname : Text.afterLast '/' path = x) :
    (Selection.of none none).isIncluded path x = true ↔ ∃ w ∈ includedWords, ("." ++ w).toList <:+ x.toList := by
  have hstar : ∀ w ∈ includedWords, ∀ s : String,
      Text.globMatches ("*." ++ w) s = true ↔ ("." ++ w).toList <:+ s.toList := by
    intro w hw s
    have hplain : ("." ++ w).toList.all Text.isPlain := by
      rw [String.toList_append, List.all_append, (includedWords_spec w hw).2.2.2]
      rfl
    have hmatch := Text.globMatches_star (s := s) hplain
    rwa [← String.append_assoc] at hmatch
  have hpath : ∀ w ∈ includedWords, ("." ++ w).toList <:+ path.toList ↔ ("." ++ w).toList <:+ x.toList := by
    intro w hw
    rw [suffix_afterLast_iff (by simp [(includedWords_spec w hw).2.2.1]), hname]
  have husual : (Selection.of none none).included = includedWords.map ("*." ++ ·) := usuallyIncluded_eq
  have hne : (includedWords.map ("*." ++ ·)).isEmpty = false := by decide +kernel
  rw [Selection.isIncluded, husual, hne, Bool.false_or, List.any_map, List.any_eq_true]
  refine exists_congr fun w => and_congr_right fun hw => ?_
  rw [Function.comp_apply, Bool.or_eq_true, hstar w hw, hstar w hw, hpath w hw, or_self]

/-- The endings that are counted and analysed. -/
def commonEndings : List String :=
  [".py", ".java", ".js", ".jsx", ".ts", ".tsx", ".c", ".h", ".cpp", ".cs", ".php", ".go"]

/-- The endings that are counted and never included. -/
def uncommonEndings : List String :=
  [".hpp", ".cc", ".hh", ".cxx", ".hxx", ".phtml", ".inc"]

/-- Whether files with an ending are analysed. -/
def isAnalysed (ending : String) : Bool :=
  (languageOf? (Text.lower ending)).any analysable.contains

/-- The endings that are both included and analysed. -/
theorem included_analysed_iff (hslash : '/' ∉ x.toList) (hdot : Text.begins x "." = false)
    (hname : Text.afterLast '/' path = x) :
    (Selection.of none none).isIncluded path x = true ∧ isAnalysed (Path.suffixOf x) = true ↔
      Path.suffixOf x ∈ ".vue" :: commonEndings := by
  have hanalysed : ∀ w ∈ includedWords, isAnalysed ("." ++ w) = true → "." ++ w ∈ ".vue" :: commonEndings := by
    decide +kernel
  have hincluded : ∀ ending ∈ ".vue" :: commonEndings, isAnalysed ending = true ∧
      ∃ w ∈ includedWords, ending = "." ++ w := by
    decide +kernel
  have hends : ∀ w ∈ includedWords, Path.suffixOf x = "." ++ w ↔ ("." ++ w).toList <:+ x.toList := by
    intro w hw
    have hspec := includedWords_spec w hw
    exact suffixOf_eq_iff hslash hdot hspec.1 hspec.2.1
  rw [isIncluded_usual_iff hname]
  constructor
  · rintro ⟨⟨w, hw, hend⟩, hlanguage⟩
    rw [(hends w hw).mpr hend] at hlanguage ⊢
    exact hanalysed w hw hlanguage
  · intro hmem
    obtain ⟨hlanguage, w, hw, heq⟩ := hincluded _ hmem
    exact ⟨⟨w, hw, (hends w hw).mp heq⟩, hlanguage⟩

/-- The endings that are counted. -/
theorem countedLanguage?_isSome_iff :
    (countedLanguage? x).isSome ↔ Path.suffixOf x ∈ commonEndings ++ uncommonEndings := by
  have hsame : (∀ e ∈ countedLanguages.flatMap (·.2), e ∈ commonEndings ++ uncommonEndings) ∧
      ∀ e ∈ commonEndings ++ uncommonEndings, e ∈ countedLanguages.flatMap (·.2) := by
    decide +kernel
  have hcounted : (countedLanguage? x).isSome ↔ Path.suffixOf x ∈ countedLanguages.flatMap (·.2) := by
    simp [countedLanguage?, List.find?_isSome, List.mem_flatMap]
  exact hcounted.trans ⟨hsame.1 _, hsame.2 _⟩

/-- No name in a tree is skipped when languages are counted, and none is usually excluded. -/
structure Unexcluded (t : FileNode) : Prop where
  counted : ∀ q n, t.at? q = some n → ¬OnSkipped q
  passed : ∀ way name n, t.at? (way ++ [name]) = some n →
    (Selection.of none none).isExcluded (pathOf (way ++ [name])) name = false

section

variable {root t : FileNode} {place q : List String} {name : String}

/-- A file with one of more endings has one of either. -/
theorem hasFile_append (as bs : List String) : t.HasFile (as ++ bs) ↔ t.HasFile as ∨ t.HasFile bs := by
  simp only [HasFile, List.mem_append, and_or_left, exists_or]

/-- Where nothing is excluded every way passes. -/
theorem Unexcluded.passes (hfree : Unexcluded t) {n : FileNode} (hat : t.at? q = some n) :
    (Selection.of none none).Passes q := by
  rintro way name ⟨rest, rfl⟩
  rw [at?_append] at hat
  obtain ⟨m, hm, -⟩ := Option.bind_eq_some_iff.mp hat
  exact hfree.passed way name m hm

/-- A repository without links and skipped names has languages exactly if a file in listable directories has a
counted ending. -/
theorem census_ne_nil_iff (horderly : t.isOrderly)
    (hlinks : ∀ q target, t.at? q ≠ some (.link target)) (hplace : root.straight? place = some t)
    (hlocation : ¬OnSkipped place) (hfree : Unexcluded t) :
    census root place ≠ [] ↔ t.visible.HasFile (commonEndings ++ uncommonEndings) := by
  rw [onSkipped_iff] at hlocation
  rw [census_eq (at?_of_straight? hplace), if_neg hlocation, Ne, tally_eq_nil_iff, ownLanguages,
    List.filterMap_eq_nil_iff]
  constructor
  · intro h
    push Not at h
    obtain ⟨q, hq, hlanguage⟩ := h
    obtain ⟨hne, m, hat, hleaf⟩ := (mem_leavesBelow horderly).mp (List.mem_of_mem_filter hq)
    obtain ⟨bytes, rfl⟩ : ∃ bytes, m = .file bytes := by
      cases m with
      | file bytes => exact ⟨bytes, rfl⟩
      | link target => exact absurd (at?_of_visible hat rfl) (hlinks q target)
      | _ => cases hleaf
    obtain ⟨way, x, rfl⟩ := (List.eq_nil_or_concat q).resolve_left hne
    rw [List.concat_eq_append] at hat hlanguage
    rw [List.getLast?_concat, Option.getD_some] at hlanguage
    exact ⟨way, x, bytes, hat, countedLanguage?_isSome_iff.mp (Option.isSome_iff_ne_none.mpr hlanguage)⟩
  · rintro ⟨way, x, bytes, hat, hending⟩ hnone
    have hne : way ++ [x] ≠ [] := List.append_ne_nil_of_right_ne_nil way (List.cons_ne_nil x [])
    have hleaf := (mem_leavesBelow horderly).mpr ⟨hne, _, hat, rfl⟩
    have hthere := at?_of_visible hat rfl
    have hskip := hfree.counted _ _ hthere
    rw [onSkipped_iff, Bool.not_eq_true] at hskip
    have hfile := leadsToFile_of_file horderly hplace hthere
    have hlanguage := hnone _ (List.mem_filter.mpr ⟨hleaf, by simp [hfile, hskip]⟩)
    rw [List.getLast?_concat, Option.getD_some] at hlanguage
    rw [← countedLanguage?_isSome_iff, hlanguage] at hending
    cases hending

/-- There are analysable files if some listed file is analysed. -/
theorem analysableFiles_ne_nil_iff (tree : FileTree) :
    analysableFiles (codeFiles tree) ≠ [] ↔ ∃ f ∈ tree.files, isAnalysed f.ending = true := by
  rw [codeFiles_eq, analysableFiles]
  constructor
  · intro h
    obtain ⟨c, hc⟩ := List.exists_mem_of_ne_nil _ h
    obtain ⟨hc, hlanguage⟩ := List.mem_filter.mp hc
    obtain ⟨f, hf, hcode⟩ := List.mem_filterMap.mp hc
    obtain ⟨language, hl, rfl⟩ := Option.map_eq_some_iff.mp hcode
    exact ⟨f, hf, by rwa [isAnalysed, hl]⟩
  · rintro ⟨f, hf, h⟩
    rw [isAnalysed, Option.any_eq_true] at h
    obtain ⟨language, hl, hlanguage⟩ := h
    have hcode : codeFile? f.path f.name f.ending =
        some ⟨f.path, f.name, Text.lower f.ending, language⟩ := by rw [codeFile?, hl, Option.map_some]
    exact List.ne_nil_of_mem (List.mem_filter.mpr ⟨List.mem_filterMap.mpr ⟨f, hf, hcode⟩, hlanguage⟩)

/-- A file that can be listed is included and analysed exactly by its ending. -/
theorem Unexcluded.included_analysed_iff (hfree : Unexcluded t) (horderly : t.isOrderly) {way : List String}
    {bytes : List UInt8} (hat : t.visible.at? (way ++ [x]) = some (.file bytes)) :
    (Selection.of none none).Selects (way ++ [x]) ∧ isAnalysed (Path.suffixOf x) = true ↔
      Path.suffixOf x ∈ ".vue" :: commonEndings := by
  have hpassed := hfree.passed way x _ (at?_of_visible hat rfl)
  have hdot : Text.begins x "." = false := (Bool.or_eq_false_iff.mp hpassed).1
  have hnames := not_mem_of_at? (isReadable_visible t horderly) hat
  have hne : way ++ [x] ≠ [] := List.append_ne_nil_of_right_ne_nil way (List.cons_ne_nil x [])
  have hlast : Text.afterLast '/' (pathOf (way ++ [x])) = x := by
    have hsplit : Text.split '/' (pathOf (way ++ [x])) = way ++ [x] := by
      rw [pathOf_of_ne_nil hne, Text.split_join hne hnames]
    apply Option.some.inj
    rw [← Text.getLast?_split, hsplit, List.getLast?_concat]
  have hway := (hfree.passes (at?_of_visible hat rfl)).of_append
  rw [selects_concat hway, hpassed, ← Repository.included_analysed_iff (hnames x (by simp)) hdot hlast]
  simp

/-- A repository with nothing excluded is analysed in part exactly if a file in listable directories has a
common ending or that of Vue. -/
theorem analysed_iff (ht : t.isDirectory) (horderly : t.isOrderly)
    (hname : (Selection.of none none).isExcluded rootPath name = false) (hfree : Unexcluded t) :
    ∃ tree, fileTree (.of none none) name t = some tree ∧
      (analysableFiles (codeFiles tree) ≠ [] ↔ t.visible.HasFile (".vue" :: commonEndings)) := by
  obtain ⟨children, hvisible⟩ : ∃ children, t.visible = .directory true children := by
    cases t with
    | directory listable children => exact ⟨_, rfl⟩
    | _ => cases ht
  have hreadable : (FileNode.directory true children).isReadable := hvisible ▸ isReadable_visible t horderly
  have htree : fileTree (.of none none) name t =
      some (.directory name rootPath (byName (treesIn (.of none none) rootPath children))) := by
    rw [fileTree, ← treeAt_visible, hvisible]
    exact fileTree_directory hname
  refine ⟨_, htree, ?_⟩
  rw [analysableFiles_ne_nil_iff, FileTree.files]
  constructor
  · rintro ⟨f, hf, hlanguage⟩
    obtain ⟨q, bytes, hat, hselects, -, rfl⟩ := (mem_files_root hreadable).mp hf
    rcases List.eq_nil_or_concat q with rfl | ⟨way, x, rfl⟩
    · cases hat
    · rw [List.concat_eq_append] at hat hselects hlanguage
      rw [← hvisible] at hat
      simp only [ListedFile.of, List.getLast?_concat, Option.getD_some] at hlanguage
      exact ⟨way, x, bytes, hat, (hfree.included_analysed_iff horderly hat).mp ⟨hselects, hlanguage⟩⟩
  · rintro ⟨way, x, bytes, hat, hending⟩
    obtain ⟨hselects, hlanguage⟩ := (hfree.included_analysed_iff horderly hat).mpr hending
    rw [hvisible] at hat
    have hplace : (ListedFile.of (way ++ [x]) bytes).place = way ++ [x] :=
      place_of (List.append_ne_nil_of_right_ne_nil way (List.cons_ne_nil x [])) (not_mem_of_at? hreadable hat)
    refine ⟨.of (way ++ [x]) bytes, (mem_files_root hreadable).mpr ⟨_, bytes, hat, hselects, hplace, rfl⟩, ?_⟩
    simpa only [ListedFile.of, List.getLast?_concat, Option.getD_some] using hlanguage

/-- In directories that can be listed, with no links and nothing skipped or excluded, a repository is
recognised and analysed alike exactly if a file has a common ending, or uncommon endings occur just if
components of Vue do. -/
theorem recognised_as_analysed_iff (ht : t.isDirectory) (horderly : t.isOrderly)
    (hlinks : ∀ q target, t.at? q ≠ some (.link target)) (hplace : root.straight? place = some t)
    (hlocation : ¬OnSkipped place) (hname : (Selection.of none none).isExcluded rootPath name = false)
    (hfree : Unexcluded t) :
    ∃ tree, fileTree (.of none none) name t = some tree ∧
      (census root place ≠ [] ↔ t.visible.HasFile (commonEndings ++ uncommonEndings)) ∧
      (analysableFiles (codeFiles tree) ≠ [] ↔ t.visible.HasFile (".vue" :: commonEndings)) ∧
      ((census root place ≠ [] ↔ analysableFiles (codeFiles tree) ≠ []) ↔
        t.visible.HasFile commonEndings ∨ (t.visible.HasFile uncommonEndings ↔ t.visible.HasFile [".vue"])) := by
  have hcounted := census_ne_nil_iff horderly hlinks hplace hlocation hfree
  obtain ⟨tree, htree, hanalysed⟩ := analysed_iff ht horderly hname hfree
  refine ⟨tree, htree, hcounted, hanalysed, ?_⟩
  rw [hcounted, hanalysed, hasFile_append, ← List.singleton_append, hasFile_append]
  tauto

/-- A repository of one empty file. -/
def lone (name : String) : FileNode :=
  .directory true [(name, .file [])]

/-- A repository of one empty file at a location without skipped names. -/
def hosted (name : String) : FileNode :=
  .directory true [("W", .directory true [("repo", lone name)])]

/-- In a directory of one file there is this file. -/
theorem at?_lone {n : FileNode} (h : (lone name).at? q = some n) :
    q = [] ∧ n = lone name ∨ q = [name] ∧ n = .file [] := by
  cases q with
  | nil => exact .inl ⟨rfl, (Option.some.inj h).symm⟩
  | cons x rest =>
    obtain ⟨c, hlookup, hrest⟩ := at?_directory.mp h
    obtain ⟨rfl, rfl⟩ : x = name ∧ c = .file [] := by
      simpa using Keyed.mem_of_lookup hlookup
    cases rest with
    | nil => exact .inr ⟨rfl, (Option.some.inj hrest).symm⟩
    | cons y more => cases hrest

/-- Its place is its name. -/
theorem at?_lone_concat {way : List String} {n : FileNode} (h : (lone name).at? (way ++ [x]) = some n) :
    way = [] ∧ x = name := by
  rcases at?_lone h with ⟨hnil, -⟩ | ⟨heq, -⟩
  · simp at hnil
  · simpa using List.append_inj' (heq.trans (List.nil_append _).symm) rfl

/-- All of a repository of one file can be seen. -/
theorem visible_lone (name : String) : (lone name).visible = lone name :=
  rfl

/-- A repository of one file has a file with the endings that its own is among. -/
theorem hasFile_lone (endings : List String) : (lone name).HasFile endings ↔ Path.suffixOf name ∈ endings := by
  constructor
  · rintro ⟨way, x, bytes, hat, hending⟩
    obtain ⟨-, rfl⟩ := at?_lone_concat hat
    exact hending
  · exact fun hending => ⟨[], name, [], at?_directory.mpr ⟨.file [], by simp, rfl⟩, hending⟩

/-- There is no link. -/
theorem not_link_lone (q : List String) (target : String) : (lone name).at? q ≠ some (.link target) := by
  intro h
  rcases at?_lone h with ⟨-, heq⟩ | ⟨-, heq⟩ <;> cases heq

/-- Nothing there is excluded if the file is not. -/
theorem unexcluded_lone (hskip : ¬OnSkipped [name])
    (hpass : (Selection.of none none).isExcluded (pathOf [name]) name = false) : Unexcluded (lone name) where
  counted q n hat := by
    rcases at?_lone hat with ⟨rfl, -⟩ | ⟨rfl, -⟩
    · simp [onSkipped_iff]
    · exact hskip
  passed way x n hat := by
    obtain ⟨rfl, rfl⟩ := at?_lone_concat hat
    exact hpass

/-- The place of the repository is not skipped. -/
theorem hosted_free :
    ¬OnSkipped ["W", "repo"] ∧ (Selection.of none none).isExcluded rootPath "repo" = false := by
  rw [onSkipped_iff]
  decide +kernel

/-- A repository with a source of C++ is recognised and nothing of it is analysed. -/
theorem source_recognised_unanalysed :
    (lone "a.cc").isOrderly ∧ Unexcluded (lone "a.cc") ∧ ¬OnSkipped ["W", "repo"] ∧
      census (hosted "a.cc") ["W", "repo"] ≠ [] ∧
      ∃ tree, fileTree (.of none none) "repo" (lone "a.cc") = some tree ∧
        analysableFiles (codeFiles tree) = [] := by
  have horderly : (lone "a.cc").isOrderly := by decide
  have hfree : Unexcluded (lone "a.cc") := unexcluded_lone (by rw [onSkipped_iff]; decide) (by decide +kernel)
  have hplace : (hosted "a.cc").straight? ["W", "repo"] = some (lone "a.cc") := rfl
  have hcounted := census_ne_nil_iff horderly not_link_lone hplace hosted_free.1 hfree
  obtain ⟨tree, htree, hanalysed⟩ := analysed_iff rfl horderly hosted_free.2 hfree
  rw [visible_lone, hasFile_lone] at hcounted hanalysed
  refine ⟨horderly, hfree, hosted_free.1, hcounted.mpr (by decide +kernel), tree, htree, ?_⟩
  by_contra hne
  exact absurd (hanalysed.mp hne) (by decide +kernel)

/-- A lone file `a.vue` is analysed, and its language is not counted. -/
theorem component_analysed_unrecognised :
    (lone "a.vue").isDirectory ∧ (lone "a.vue").isOrderly ∧ Unexcluded (lone "a.vue") ∧
      ∃ tree, fileTree (.of none none) "repo" (lone "a.vue") = some tree ∧
        ¬(census (hosted "a.vue") ["W", "repo"] ≠ [] ↔ analysableFiles (codeFiles tree) ≠ []) := by
  have horderly : (lone "a.vue").isOrderly := by decide
  have hfree : Unexcluded (lone "a.vue") := unexcluded_lone (by rw [onSkipped_iff]; decide) (by decide +kernel)
  have hplace : (hosted "a.vue").straight? ["W", "repo"] = some (lone "a.vue") := rfl
  obtain ⟨tree, htree, -, -, hsame⟩ :=
    recognised_as_analysed_iff rfl horderly not_link_lone hplace hosted_free.1 hosted_free.2 hfree
  refine ⟨rfl, horderly, hfree, tree, htree, fun hagree => ?_⟩
  have hendings := hsame.mp hagree
  rw [visible_lone, hasFile_lone, hasFile_lone, hasFile_lone] at hendings
  exact absurd hendings (by decide +kernel)

end

end Repository

end RepoAtlas
