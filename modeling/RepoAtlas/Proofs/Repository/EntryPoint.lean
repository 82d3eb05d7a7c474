import Mathlib.Data.List.Pairwise
import RepoAtlas.Repository.EntryPoint
import RepoAtlas.Repository.FileTree

/-!
# Which entry points come first

The number of directories above a file lowers its rank, so of files with one name those that lie deepest come
first, and the cut takes away those next to the root.
-/

namespace RepoAtlas.Repository

/-- A file of code as it is listed. -/
def CodeFile.listed (f : CodeFile) : NamedFile :=
  ⟨some f.name, some f.path⟩

/-- The number of directories above a file. -/
def CodeFile.depth (f : CodeFile) : Nat :=
  Text.countChar f.path '/'

def CodeFile.rank (f : CodeFile) : Int :=
  entryRank (Text.lower f.name) f.path

/-- Whether the name or the path of a file hints at an entry point. -/
def CodeFile.hints (f : CodeFile) : Bool :=
  holdsOne (Text.lower f.name) ["main", "app", "server", "start", "index"] || isEntryPath f.path

/-- The files among which entry points are looked for. -/
def candidates (files : List CodeFile) : List CodeFile :=
  if (files.filter CodeFile.hints).isEmpty then files.filter (·.depth ≤ 1) else files.filter CodeFile.hints

/-- The candidates by rank. -/
def ranking (files : List CodeFile) : List CodeFile :=
  (candidates files).mergeSort fun f g => f.rank ≤ g.rank

/-- The files that are taken for entry points. -/
def entries (limit : Int) (files : List CodeFile) : List CodeFile :=
  firstOf limit (ranking files)

/-- The candidates beyond the limit. -/
def cutOff (limit : Int) (files : List CodeFile) : List CodeFile :=
  (ranking files).drop (entries limit files).length

/-- Of files with one name, those of a better depth come first and are not cut off in favour of others. -/
def Prefers (better : Nat → Nat → Prop) (limit : Int) (files : List CodeFile) : Prop :=
  ((entries limit files).Pairwise fun f g => f.name = g.name → better f.depth g.depth) ∧
    ∀ f ∈ entries limit files, ∀ g ∈ cutOff limit files, f.name = g.name → better f.depth g.depth

variable {limit : Int} {files : List CodeFile}

/-- Entries and what is cut off make up the ranking. -/
theorem entries_append_cutOff (limit : Int) (files : List CodeFile) :
    entries limit files ++ cutOff limit files = ranking files := by
  obtain ⟨rest, hrest⟩ : entries limit files <+: ranking files := firstOf_prefix limit (ranking files)
  rw [cutOff, ← hrest, List.drop_left]

/-- A candidate is an entry or cut off. -/
theorem mem_candidates_iff {f : CodeFile} :
    f ∈ candidates files ↔ f ∈ entries limit files ∨ f ∈ cutOff limit files := by
  rw [← List.mem_append, entries_append_cutOff]
  exact (List.mergeSort_perm _ _).mem_iff.symm

/-- What of a file its rank depends on. -/
def CodeFile.key (f : CodeFile) : String × String :=
  (Text.lower f.name, f.path)

/-- The entry points are found by name and path only. -/
theorem likelyEntries_eq (limit : Int) (files : List CodeFile) :
    likelyEntries limit (files.map CodeFile.listed) = .ok ((entries limit files).map CodeFile.path) := by
  have hread : (files.map CodeFile.listed).mapM (fun f => do
      let name ← f.lowerName
      let path ← f.wholePath
      Except.ok (name, path)) = Except.ok (files.map CodeFile.key) := by
    rw [List.mapM_map]
    exact List.mapM_pure
  have hranked : (ranking files).map (fun f => (f.rank, f.path)) =
      ((candidates files).map fun f => (f.rank, f.path)).mergeSort fun a b => a.1 ≤ b.1 :=
    List.map_mergeSort (f := fun f : CodeFile => (f.rank, f.path)) fun _ _ _ _ => rfl
  rw [likelyEntries, hread]
  refine congrArg Except.ok ?_
  have hpaths : (entries limit files).map CodeFile.path =
      firstOf limit (((ranking files).map fun f => (f.rank, f.path)).map (·.2)) := by
    rw [List.map_map, firstOf_map]
    rfl
  rw [hpaths, hranked, List.filter_map, List.filter_map, List.isEmpty_map, ← apply_ite (List.map CodeFile.key),
    List.map_map]
  rfl

/-- Of two files with one name the deeper one has the lower rank. -/
theorem rank_le_iff {f g : CodeFile} (h : f.name = g.name) : f.rank ≤ g.rank ↔ g.depth ≤ f.depth := by
  simp only [CodeFile.rank, entryRank, h, CodeFile.depth]
  omega

/-- Deep files are preferred. -/
theorem prefers_deep (limit : Int) (files : List CodeFile) : Prefers (· ≥ ·) limit files := by
  have hsorted : (ranking files).Pairwise fun f g => decide (f.rank ≤ g.rank) = true := by
    refine List.pairwise_mergeSort (fun f g h hfg hgh => ?_) (fun f g => ?_) (candidates files)
    · exact decide_eq_true (Int.le_trans (of_decide_eq_true hfg) (of_decide_eq_true hgh))
    · simpa using Int.le_total f.rank g.rank
  have hdeep : (entries limit files ++ cutOff limit files).Pairwise fun f g =>
      f.name = g.name → f.depth ≥ g.depth := by
    rw [entries_append_cutOff]
    exact hsorted.imp fun hrank hname => (rank_le_iff hname).mp (of_decide_eq_true hrank)
  obtain ⟨hentries, -, hcutOff⟩ := List.pairwise_append.mp hdeep
  exact ⟨hentries, hcutOff⟩

/-- The entry points lie deepest among the candidates with their name. Files near the root are preferred
exactly if every entry point lies as deep as all candidates with its name. -/
theorem near_entries_preferred_iff (limit : Int) (files : List CodeFile) :
    likelyEntries limit (files.map CodeFile.listed) = .ok ((entries limit files).map CodeFile.path) ∧
    Prefers (· ≥ ·) limit files ∧
    (Prefers (· ≤ ·) limit files ↔
      ∀ f ∈ entries limit files, ∀ g ∈ candidates files, f.name = g.name → f.depth = g.depth) := by
  obtain ⟨hentries, hcutOff⟩ := prefers_deep limit files
  refine ⟨likelyEntries_eq limit files, ⟨hentries, hcutOff⟩, ?_, ?_⟩
  · rintro ⟨hnear, hkept⟩ f hf g hg hname
    rcases mem_candidates_iff.mp hg with hg | hg
    · have hall : ∀ ⦃f⦄, f ∈ entries limit files → ∀ ⦃g⦄, g ∈ entries limit files →
          f.name = g.name → f.depth ≤ g.depth :=
        hnear.forall_of_forall_of_flip (fun f _ _ => Nat.le_refl f.depth)
          (hentries.imp fun h hname => h hname.symm)
      exact Nat.le_antisymm (hall hf hg hname) (hall hg hf hname.symm)
    · exact Nat.le_antisymm (hkept f hf g hg hname) (hcutOff f hf g hg hname)
  · intro hsame
    refine ⟨List.pairwise_of_forall_mem_list fun f hf g hg hname => ?_, fun f hf g hg hname => ?_⟩
    · exact Nat.le_of_eq (hsame f hf g (mem_candidates_iff.mpr (Or.inl hg)) hname)
    · exact Nat.le_of_eq (hsame f hf g (mem_candidates_iff.mpr (Or.inr hg)) hname)

/-- A program at the root. -/
def rootProgram : CodeFile := ⟨"main.py", "main.py", ".py", "python"⟩

/-- A file of the same name further down. -/
def innerProgram : CodeFile := ⟨"src/main.py", "main.py", ".py", "python"⟩

/-- With room for one entry point the file at the root is cut off. -/
theorem root_program_cut_off :
    likelyEntries 1 [innerProgram.listed, rootProgram.listed] = .ok ["src/main.py"] ∧
      ¬Prefers (· ≤ ·) 1 [innerProgram, rootProgram] := by
  have hranking : ranking [innerProgram, rootProgram] = [innerProgram, rootProgram] := by
    have hcandidates : candidates [innerProgram, rootProgram] = [innerProgram, rootProgram] := by decide +kernel
    rw [ranking, hcandidates]
    exact List.mergeSort_of_pairwise (by decide +kernel)
  have hentries : entries 1 [innerProgram, rootProgram] = [innerProgram] := by
    rw [entries, hranking]
    rfl
  have hcutOff : cutOff 1 [innerProgram, rootProgram] = [rootProgram] := by
    rw [cutOff, hentries, hranking]
    rfl
  have hpaths := likelyEntries_eq 1 [innerProgram, rootProgram]
  rw [hentries] at hpaths
  refine ⟨hpaths, fun hnear => ?_⟩
  have hle := hnear.2 innerProgram (by simp [hentries]) rootProgram (by simp [hcutOff]) rfl
  exact absurd hle (by decide +kernel)

end RepoAtlas.Repository
