import Mathlib.Data.Finset.Card
import RepoAtlas.Proofs.Text.Tidy
import RepoAtlas.Repository.Git

/-!
# What couplings count

Reading a log back gives the tracked files of each commit, each of them once. Two files are reported at most
once, with the number of commits that change both among those that change at most fifty tracked files.
-/

namespace RepoAtlas.Report

/-! ## Logs -/

/-- A commit as a log tells it: its name, and the names of the files that it changes in any order, some of them
perhaps several times. -/
structure Commit where
  hash : String
  files : List String

/-- A name of a file that can stand on a line of a log. -/
structure IsFileName (name : String) : Prop where
  nonempty : name ≠ ""
  oneLine : '\n' ∉ name.toList
  trimmed : Text.Trimmed name
  unmarked : Text.begins name commitMark = false

instance (name : String) : Decidable (IsFileName name) :=
  decidable_of_iff
    (name ≠ "" ∧ '\n' ∉ name.toList ∧ Text.Trimmed name ∧ Text.begins name commitMark = false)
    ⟨fun ⟨h₁, h₂, h₃, h₄⟩ => ⟨h₁, h₂, h₃, h₄⟩, fun h => ⟨h.nonempty, h.oneLine, h.trimmed, h.unmarked⟩⟩

/-- The lines that tell of a commit. -/
def Commit.lines (k : Commit) : List String :=
  (commitMark ++ k.hash) :: k.files

/-- A line that holds nothing but blanks. -/
def isBlankLine (line : String) : Bool :=
  line.toList.all Text.isBlank

/-- Lines tell of commits: without the blank lines they are the lines of the commits, one after the other. -/
structure Tells (lines : List String) (ks : List Commit) : Prop where
  oneLine : ∀ line ∈ lines, '\n' ∉ line.toList
  told : lines.filter (fun line => !isBlankLine line) = ks.flatMap Commit.lines

variable {tracked files names rest lines : List String} {name line a b : String} {ks : List Commit}
  {cs : Components} {limits : CouplingLimits}

/-! ## Reading a log -/

/-- The files of a commit after a name is read: a tracked file is added unless it is there. -/
def gather (tracked files : List String) (name : String) : List String :=
  if tracked.contains name && !files.contains name then files ++ [name] else files

/-- A blank line does not count. -/
theorem commitsFrom_blank (htracked : "" ∉ tracked) (h : isBlankLine line = true) :
    commitsFrom tracked files (line :: rest) = commitsFrom tracked files rest := by
  have hstrip : Text.strip line = "" := by
    rw [Text.strip, String.ofList_eq_empty_iff, Text.trim_eq_nil_iff]
    exact List.all_eq_true.mp h
  have hmark : Text.begins "" commitMark = false := by decide
  simp [commitsFrom, hstrip, hmark, htracked]

/-- A file name is gathered if it is tracked. -/
theorem commitsFrom_name (h : IsFileName name) :
    commitsFrom tracked files (name :: rest) = commitsFrom tracked (gather tracked files name) rest := by
  rw [commitsFrom, gather]
  simp only [h.trimmed.strip_eq, h.unmarked, Bool.false_eq_true, if_false]
  split <;> rfl

/-- A mark ends the commit before it, which counts if it changes a tracked file. -/
theorem commitsFrom_mark (hash : String) :
    commitsFrom tracked files ((commitMark ++ hash) :: rest) =
      [files].filter (fun c => !c.isEmpty) ++ commitsFrom tracked [] rest := by
  have hmark : Text.begins (Text.strip (commitMark ++ hash)) commitMark = true := by
    rw [Text.strip_append rfl (by decide), Text.begins, String.toList_append, List.isPrefixOf_iff_prefix]
    exact List.prefix_append _ _
  rw [commitsFrom]
  simp only [hmark, if_true]
  cases files <;> rfl

/-- Blank lines can be left out. -/
theorem commitsFrom_filter (htracked : "" ∉ tracked) (lines : List String) :
    commitsFrom tracked files (lines.filter fun line => !isBlankLine line) =
      commitsFrom tracked files lines := by
  induction lines generalizing files with
  | nil => rfl
  | cons line lines ih =>
    cases hblank : isBlankLine line with
    | true => rw [List.filter_cons_of_neg (by simp [hblank]), ih, commitsFrom_blank htracked hblank]
    | false =>
      rw [List.filter_cons_of_pos (by simp [hblank]), commitsFrom, commitsFrom]
      simp only [ih]

/-- File names are gathered in turn. -/
theorem commitsFrom_append (h : ∀ name ∈ names, IsFileName name) :
    commitsFrom tracked files (names ++ rest) = commitsFrom tracked (names.foldl (gather tracked) files) rest := by
  induction names generalizing files with
  | nil => rfl
  | cons name names ih =>
    rw [List.cons_append, commitsFrom_name (h name List.mem_cons_self),
      ih fun other hother => h other (List.mem_cons_of_mem name hother), List.foldl_cons]

/-- The tracked files that a commit changes, in the order in which they are read. -/
def Commit.read (tracked : List String) (k : Commit) : List String :=
  k.files.foldl (gather tracked) []

/-- Reading commits gives what is read of each of them, after the files of the commit before. -/
theorem commitsFrom_flatMap (h : ∀ k ∈ ks, ∀ f ∈ k.files, IsFileName f) :
    commitsFrom tracked files (ks.flatMap Commit.lines) =
      (files :: ks.map (Commit.read tracked)).filter fun c => !c.isEmpty := by
  induction ks generalizing files with
  | nil => cases files <;> rfl
  | cons k ks ih =>
    rw [List.flatMap_cons, Commit.lines, List.cons_append, commitsFrom_mark,
      commitsFrom_append (h k List.mem_cons_self), ih fun j hj => h j (List.mem_cons_of_mem k hj),
      List.map_cons, ← List.filter_append, Commit.read]
    rfl

/-- The tracked names are gathered. -/
theorem mem_foldl_gather : a ∈ names.foldl (gather tracked) files ↔ a ∈ files ∨ a ∈ names ∧ a ∈ tracked := by
  induction names generalizing files with
  | nil => simp
  | cons name names ih =>
    have hgather : a ∈ gather tracked files name ↔ a ∈ files ∨ a = name ∧ a ∈ tracked := by
      unfold gather
      by_cases htracked : name ∈ tracked <;> by_cases hfiles : name ∈ files <;> simp [htracked, hfiles] <;> grind
    rw [List.foldl_cons, ih, hgather, List.mem_cons]
    tauto

/-- No name is gathered twice. -/
theorem nodup_foldl_gather (h : files.Nodup) : (names.foldl (gather tracked) files).Nodup := by
  induction names generalizing files with
  | nil => exact h
  | cons name names ih =>
    refine ih ?_
    unfold gather
    split
    · rename_i hnew
      simp only [Bool.and_eq_true, Bool.not_eq_true', List.contains_eq_mem, decide_eq_false_iff_not] at hnew
      exact List.nodup_append.mpr ⟨h, List.nodup_singleton name, by grind⟩
    · exact h

/-! ## Counting commits -/

/-- A file has a component. -/
def HasComponent (cs : Components) (file : String) : Prop :=
  ∃ c ∈ cs.values, c.relativePath = file

instance (cs : Components) (file : String) : Decidable (HasComponent cs file) :=
  inferInstanceAs (Decidable (∃ c ∈ cs.values, c.relativePath = file))

/-- The files with components that a commit changes. -/
def Commit.trackedFiles (cs : Components) (k : Commit) : Finset String :=
  k.files.toFinset.filter (HasComponent cs)

/-- Those of some commits that change no more files with components than a limit. -/
def moderate (cs : Components) (limit : Int) (ks : List Commit) : List Commit :=
  ks.filter fun k => (k.trackedFiles cs).card ≤ limit

/-- How many of some commits change all of some files. -/
def touching (ks : List Commit) (files : List String) : Nat :=
  ks.countP fun k => ∀ f ∈ files, f ∈ k.files

/-- Files that have components are tracked. -/
theorem mem_trackedFiles_iff : a ∈ trackedFiles cs ↔ HasComponent cs a ∧ a ≠ "" := by
  simp [trackedFiles, HasComponent]

/-- Of a commit the tracked files are read. -/
theorem mem_read_iff {k : Commit} : a ∈ k.read tracked ↔ a ∈ k.files ∧ a ∈ tracked := by
  simp [Commit.read, mem_foldl_gather]

/-- No file is read twice. -/
theorem nodup_read (k : Commit) : (k.read tracked).Nodup :=
  nodup_foldl_gather .nil

/-- As many files are read as are tracked. -/
theorem length_read {k : Commit} (h : ∀ f ∈ k.files, IsFileName f) :
    (k.read (trackedFiles cs)).length = (k.trackedFiles cs).card := by
  have hread : (k.read (trackedFiles cs)).toFinset = k.trackedFiles cs := by
    ext f
    rw [List.mem_toFinset, mem_read_iff, mem_trackedFiles_iff, Commit.trackedFiles, Finset.mem_filter,
      List.mem_toFinset]
    exact and_congr_right fun hf => and_iff_left (h f hf).nonempty
  rw [← hread, List.toFinset_card_of_nodup (nodup_read k)]

/-- The empty path is not tracked. -/
theorem empty_not_mem_trackedFiles (cs : Components) : "" ∉ trackedFiles cs :=
  fun hmem => (mem_trackedFiles_iff.mp hmem).2 rfl

/-- The commits of a log are read line by line. -/
theorem commits_join_lines (limits : CouplingLimits) (cs : Components) (h : ∀ line ∈ lines, '\n' ∉ line.toList) :
    commits limits (trackedFiles cs) (Text.join "\n" lines) =
      (commitsFrom (trackedFiles cs) [] lines).filter fun c => c.length ≤ limits.files := by
  refine congrArg (List.filter _) ?_
  by_cases hne : lines = []
  · subst hne
    exact commitsFrom_blank (empty_not_mem_trackedFiles cs) rfl
  · exact congrArg _ (Text.split_join_singleton hne h)

/-- A log tells the commits that are not too large, without empty ones. -/
theorem commits_join (h : ∀ k ∈ ks, ∀ f ∈ k.files, IsFileName f) (htells : Tells lines ks) :
    commits limits (trackedFiles cs) (Text.join "\n" lines) =
      ((moderate cs limits.files ks).map (Commit.read (trackedFiles cs))).filter fun c => !c.isEmpty := by
  have hmoderate : (moderate cs limits.files ks).map (Commit.read (trackedFiles cs)) =
      (ks.map (Commit.read (trackedFiles cs))).filter fun c => c.length ≤ limits.files := by
    rw [moderate, List.filter_map]
    refine congrArg (List.map _) (List.filter_congr fun k hk => ?_)
    rw [Function.comp_apply, length_read (h k hk)]
  rw [commits_join_lines limits cs htells.oneLine, ← commitsFrom_filter (empty_not_mem_trackedFiles cs), htells.told,
    commitsFrom_flatMap h, hmoderate, List.filter_cons_of_neg (by simp), List.filter_comm]

/-- As many of them have given files as touch these. -/
theorem countP_commits (h : ∀ k ∈ ks, ∀ f ∈ k.files, IsFileName f) (htells : Tells lines ks) (hne : files ≠ [])
    (hfiles : ∀ f ∈ files, f ∈ trackedFiles cs) :
    (commits limits (trackedFiles cs) (Text.join "\n" lines)).countP (fun c => ∀ f ∈ files, f ∈ c) =
      touching (moderate cs limits.files ks) files := by
  rw [commits_join h htells, List.countP_filter, List.countP_map, touching]
  refine List.countP_congr fun k _ => ?_
  have hread : (∀ f ∈ files, f ∈ k.read (trackedFiles cs)) ↔ ∀ f ∈ files, f ∈ k.files :=
    forall₂_congr fun f hf => by rw [mem_read_iff, and_iff_left (hfiles f hf)]
  have hsome : (∀ f ∈ files, f ∈ k.read (trackedFiles cs)) → k.read (trackedFiles cs) ≠ [] := by
    obtain ⟨f, rest, rfl⟩ := List.exists_cons_of_ne_nil hne
    exact fun hall => List.ne_nil_of_mem (hall f List.mem_cons_self)
  simp only [Function.comp_apply, Bool.and_eq_true, decide_eq_true_eq, Bool.not_eq_true', List.isEmpty_eq_false_iff]
  rw [and_iff_left_of_imp hsome, hread]

/-- The changes of a file are the commits that touch it. -/
theorem changes_join (limits : CouplingLimits) (h : ∀ k ∈ ks, ∀ f ∈ k.files, IsFileName f)
    (htells : Tells lines ks) (ha : a ∈ trackedFiles cs) :
    changes (commits limits (trackedFiles cs) (Text.join "\n" lines)) a =
      touching (moderate cs limits.files ks) [a] := by
  rw [changes, ← List.countP_eq_length_filter, ← countP_commits h htells (List.cons_ne_nil a []) (by simpa using ha)]
  simp

/-- Those of two files are the commits that touch both. -/
theorem sharedChanges_join (limits : CouplingLimits) (h : ∀ k ∈ ks, ∀ f ∈ k.files, IsFileName f)
    (htells : Tells lines ks) (ha : a ∈ trackedFiles cs) (hb : b ∈ trackedFiles cs) :
    sharedChanges (commits limits (trackedFiles cs) (Text.join "\n" lines)) a b =
      touching (moderate cs limits.files ks) [a, b] := by
  rw [sharedChanges, ← List.countP_eq_length_filter,
    ← countP_commits h htells (List.cons_ne_nil a [b]) (by simpa using ⟨ha, hb⟩)]
  simp

/-- More files are changed by fewer commits. -/
theorem touching_le_of_subset {others : List String} (h : others ⊆ files) : touching ks files ≤ touching ks others :=
  List.countP_mono_left fun k _ hall => by
    simp only [decide_eq_true_eq] at hall ⊢
    exact fun f hf => hall f (h hf)

/-! ## Pairs of files -/

/-- The pairs of an ordered list are ordered. -/
theorem mem_pairs_iff {l : List String} (h : l.Pairwise (· < ·)) : (a, b) ∈ pairs l ↔ a < b ∧ a ∈ l ∧ b ∈ l := by
  induction l with
  | nil => simp [pairs]
  | cons x l ih =>
    obtain ⟨hx, hl⟩ := List.pairwise_cons.mp h
    have hfirst : (a, b) ∈ l.map (x, ·) ↔ a = x ∧ b ∈ l := by simp [eq_comm, and_comm]
    rw [pairs, List.mem_append, hfirst, ih hl, List.mem_cons, List.mem_cons]
    constructor
    · rintro (⟨rfl, hb⟩ | ⟨hab, ha, hb⟩)
      · exact ⟨hx b hb, Or.inl rfl, Or.inr hb⟩
      · exact ⟨hab, Or.inr ha, Or.inr hb⟩
    · rintro ⟨hab, rfl | ha, rfl | hb⟩
      · exact absurd hab (String.lt_irrefl _)
      · exact Or.inl ⟨rfl, hb⟩
      · exact absurd (hx a ha) (String.lt_asymm hab)
      · exact Or.inr ⟨hab, ha, hb⟩

/-- Without duplicates nothing occurs twice. -/
theorem nodup_eraseDups {α : Type} [BEq α] [LawfulBEq α] (l : List α) : l.eraseDups.Nodup := by
  induction hlength : l.length using Nat.strong_induction_on generalizing l with
  | _ n ih =>
    cases l with
    | nil => simp
    | cons x l =>
      rw [List.eraseDups_cons, List.nodup_cons, List.mem_eraseDups]
      refine ⟨by simp, ih _ ?_ _ rfl⟩
      have hle := List.length_filter_le (fun y => !y == x) l
      rw [← hlength, List.length_cons]
      omega

/-- The pairs of files that some commit changes together, each once. -/
def changedPairs (commits : List (List String)) : List (String × String) :=
  (commits.flatMap fun c => pairs (Text.sorted c)).eraseDups

/-- Two files were changed together if a commit has both. -/
theorem mem_changedPairs_iff {commits : List (List String)} (h : ∀ c ∈ commits, c.Nodup) :
    (a, b) ∈ changedPairs commits ↔ a < b ∧ ∃ c ∈ commits, a ∈ c ∧ b ∈ c := by
  have hpairs : ∀ c ∈ commits, ((a, b) ∈ pairs (Text.sorted c) ↔ a < b ∧ a ∈ c ∧ b ∈ c) := fun c hc => by
    rw [mem_pairs_iff (Text.pairwise_lt_sorted (h c hc)), Text.mem_sorted, Text.mem_sorted]
  rw [changedPairs, List.mem_eraseDups, List.mem_flatMap]
  constructor
  · rintro ⟨c, hc, hmem⟩
    obtain ⟨hab, ha, hb⟩ := (hpairs c hc).mp hmem
    exact ⟨hab, c, hc, ha, hb⟩
  · rintro ⟨hab, c, hc, ha, hb⟩
    exact ⟨c, hc, (hpairs c hc).mpr ⟨hab, ha, hb⟩⟩

/-! ## Couplings -/

/-- Which share of the commits of the file that changes less often changes both files. -/
def share (ks : List Commit) (a b : String) : Float :=
  (touching ks [a, b]).toFloat / (min (touching ks [a]) (touching ks [b])).toFloat

variable {all : List (List String)} {c : Coupling}

/-- Two files are coupled if they change together often enough. -/
theorem coupling?_eq_some_iff :
    coupling? limits all a b = some c ↔
      (limits.shared ≤ sharedChanges all a b ∧
        (sharedChanges all a b).toFloat / (min (changes all a) (changes all b)).toFloat ≥ limits.ratio) ∧
      c = { fileA := a, fileB := b, shared := sharedChanges all a b,
            ratio := Number.roundTo 3 ((sharedChanges all a b).toFloat /
              (min (changes all a) (changes all b)).toFloat) } := by
  simp only [coupling?, Bool.and_eq_true, decide_eq_true_eq]
  split
  · rename_i hclose
    simp [hclose, eq_comm]
  · rename_i hclose
    simp [hclose]

/-- All couplings that a log shows, in the order of the pairs of files. -/
def found (limits : CouplingLimits) (all : List (List String)) : List Coupling :=
  (changedPairs all).filterMap fun (a, b) => coupling? limits all a b

/-- The couplings are those found, the closest first, up to a number. -/
theorem couplings_eq (limits : CouplingLimits) (cs : Components) (log : String) :
    couplings limits cs log =
      ((found limits (commits limits (trackedFiles cs) log)).mergeSort fun x y => x.ratio ≥ y.ratio).take
        couplingLimit :=
  rfl

/-- No pair is found twice. -/
theorem nodup_found (limits : CouplingLimits) (all : List (List String)) :
    ((found limits all).map fun c => (c.fileA, c.fileB)).Nodup := by
  have hfiles : (found limits all).map (fun c => (c.fileA, c.fileB)) =
      (changedPairs all).filter fun p => (coupling? limits all p.1 p.2).isSome := by
    rw [found, List.map_filterMap, ← List.filterMap_eq_filter]
    refine congrArg (fun f => List.filterMap f _) (funext fun p => ?_)
    cases hp : coupling? limits all p.1 p.2 with
    | none => simp [Option.guard, hp]
    | some c =>
      obtain ⟨-, rfl⟩ := coupling?_eq_some_iff.mp hp
      simp [hp]
  rw [hfiles]
  exact (nodup_eraseDups _).filter _

/-- No pair is coupled twice. -/
theorem nodup_couplings (limits : CouplingLimits) (cs : Components) (log : String) :
    ((couplings limits cs log).map fun c => (c.fileA, c.fileB)).Nodup := by
  rw [couplings_eq]
  refine (List.take_sublist _ _).map _ |>.nodup ?_
  exact ((List.mergeSort_perm _ _).map _).nodup_iff.mpr (nodup_found limits _)

/-- What is found are pairs that were changed together often enough. -/
theorem mem_found_iff :
    c ∈ found limits all ↔ ∃ a b, (a, b) ∈ changedPairs all ∧ coupling? limits all a b = some c := by
  rw [found, List.mem_filterMap, Prod.exists]

/-- A coupling tells how often two files with components change together in some commits. -/
structure Counted (cs : Components) (ks : List Commit) (c : Coupling) : Prop where
  ordered : c.fileA < c.fileB
  componentA : HasComponent cs c.fileA
  componentB : HasComponent cs c.fileB
  shared_eq : c.shared = touching ks [c.fileA, c.fileB]
  shared_le_fileA : c.shared ≤ touching ks [c.fileA]
  shared_le_fileB : c.shared ≤ touching ks [c.fileB]

/-- What is read of a commit stands in it once. -/
theorem nodup_of_mem_commits (h : ∀ k ∈ ks, ∀ f ∈ k.files, IsFileName f) (htells : Tells lines ks)
    {read : List String} (hread : read ∈ commits limits (trackedFiles cs) (Text.join "\n" lines)) :
    read.Nodup ∧ ∀ f ∈ read, f ∈ trackedFiles cs := by
  rw [commits_join h htells] at hread
  obtain ⟨k, -, rfl⟩ := List.mem_map.mp (List.mem_filter.mp hread).1
  exact ⟨nodup_read k, fun f hf => (mem_read_iff.mp hf).2⟩

/-- A coupling counts the commits that touch its files. -/
theorem counted_of_mem_couplings (h : ∀ k ∈ ks, ∀ f ∈ k.files, IsFileName f) (htells : Tells lines ks)
    (hc : c ∈ couplings limits cs (Text.join "\n" lines)) :
    Counted cs (moderate cs limits.files ks) c ∧ limits.shared ≤ c.shared := by
  rw [couplings_eq] at hc
  obtain ⟨a, b, hpair, hcoupling⟩ := mem_found_iff.mp (List.mem_mergeSort.mp (List.mem_of_mem_take hc))
  obtain ⟨hab, read, hread, ha, hb⟩ :=
    (mem_changedPairs_iff fun read hread => (nodup_of_mem_commits h htells hread).1).mp hpair
  have htracked := (nodup_of_mem_commits h htells hread).2
  obtain ⟨⟨hleast, -⟩, rfl⟩ := coupling?_eq_some_iff.mp hcoupling
  have hshared := sharedChanges_join limits h htells (htracked a ha) (htracked b hb)
  refine ⟨⟨hab, (mem_trackedFiles_iff.mp (htracked a ha)).1, (mem_trackedFiles_iff.mp (htracked b hb)).1,
    hshared, ?_, ?_⟩, hleast⟩
  · exact hshared.trans_le (touching_le_of_subset (by simp))
  · exact hshared.trans_le (touching_le_of_subset (by simp))

/-- Files that change together often enough are coupled, unless there is no room left. -/
theorem exists_coupling (h : ∀ k ∈ ks, ∀ f ∈ k.files, IsFileName f) (htells : Tells lines ks) (hab : a < b)
    (ha : HasComponent cs a) (hb : HasComponent cs b)
    (hpos : 0 < touching (moderate cs limits.files ks) [a, b])
    (hshared : limits.shared ≤ touching (moderate cs limits.files ks) [a, b])
    (hshare : share (moderate cs limits.files ks) a b ≥ limits.ratio) :
    (couplings limits cs (Text.join "\n" lines)).length = couplingLimit ∨
      ∃ c ∈ couplings limits cs (Text.join "\n" lines), c.fileA = a ∧ c.fileB = b := by
  obtain ⟨k, hk, hboth⟩ := List.countP_pos_iff.mp hpos
  have hnames : ∀ f ∈ [a, b], f ≠ "" := fun f hf =>
    (h k (List.mem_filter.mp hk).1 f (of_decide_eq_true hboth f hf)).nonempty
  have hta : a ∈ trackedFiles cs := mem_trackedFiles_iff.mpr ⟨ha, hnames a (by simp)⟩
  have htb : b ∈ trackedFiles cs := mem_trackedFiles_iff.mpr ⟨hb, hnames b (by simp)⟩
  have hcount := sharedChanges_join limits h htells hta htb
  have hpair : (a, b) ∈ changedPairs (commits limits (trackedFiles cs) (Text.join "\n" lines)) := by
    refine (mem_changedPairs_iff fun read hread => (nodup_of_mem_commits h htells hread).1).mpr ⟨hab, ?_⟩
    rw [← hcount, sharedChanges, List.length_pos_iff_exists_mem] at hpos
    obtain ⟨read, hread⟩ := hpos
    exact ⟨read, (List.mem_filter.mp hread).1, by simpa using (List.mem_filter.mp hread).2⟩
  have hfound := mem_found_iff.mpr ⟨a, b, hpair, coupling?_eq_some_iff.mpr ⟨⟨hcount ▸ hshared, ?_⟩, rfl⟩⟩
  · rw [couplings_eq, List.length_take, List.length_mergeSort]
    rcases Nat.le_total couplingLimit (found limits (commits limits (trackedFiles cs) (Text.join "\n" lines))).length
      with hlong | hshort
    · exact Or.inl (Nat.min_eq_left hlong)
    · rw [List.take_of_length_le (by simpa using hshort)]
      exact Or.inr ⟨_, List.mem_mergeSort.mpr hfound, rfl, rfl⟩
  · rw [hcount, changes_join limits h htells hta, changes_join limits h htells htb]
    exact hshare

/-- Without tracked files there are no commits. -/
theorem commitsFrom_untracked (lines : List String) : commitsFrom [] [] lines = [] := by
  induction lines with
  | nil => rfl
  | cons line lines ih => simp [commitsFrom, ih]

/-- What git answers is looked through for couplings; where it is not asked, there are none. -/
theorem couplingsOf_finished (limits : CouplingLimits) (cs : Components) (log errors : String) :
    Repository.couplingsOf limits true (.finished 0 log errors) cs = .ok (couplings limits cs log) := by
  unfold Repository.couplingsOf
  split
  · rfl
  · rename_i hnone
    have htracked : trackedFiles cs = [] := by simpa [Repository.asksForLog] using hnone
    rw [couplings_eq, commits, htracked, commitsFrom_untracked]
    simp [found, changedPairs]

/-- At most a hundred pairs of files are reported, each once, with the number of commits that change both
among those that change at most fifty files with components. With fewer, no pair is left out that changes
together often enough. -/
theorem couplings_count_commits (cs : Components) (ks : List Commit) (lines : List String) (errors : String)
    (hnames : ∀ k ∈ ks, ∀ f ∈ k.files, IsFileName f) (htells : Tells lines ks) :
    ∃ found, Repository.couplingsOf {} true (.finished 0 (Text.join "\n" lines) errors) cs = .ok found ∧
      found.length ≤ 100 ∧ (found.map fun c => (c.fileA, c.fileB)).Nodup ∧
      (∀ c ∈ found, Counted cs (moderate cs 50 ks) c ∧ 5 ≤ c.shared) ∧
      ∀ a b, a < b → HasComponent cs a → HasComponent cs b → 5 ≤ touching (moderate cs 50 ks) [a, b] →
        share (moderate cs 50 ks) a b ≥ 0.3 → found.length = 100 ∨ ∃ c ∈ found, c.fileA = a ∧ c.fileB = b := by
  refine ⟨_, couplingsOf_finished {} cs _ errors, ?_, nodup_couplings {} cs _, fun c hc => ?_, ?_⟩
  · exact (List.length_take_le _ _)
  · obtain ⟨hcounted, hleast⟩ := counted_of_mem_couplings hnames htells hc
    exact ⟨hcounted, Int.ofNat_le.mp hleast⟩
  · intro a b hab ha hb hleast hshare
    exact exists_coupling hnames htells hab ha hb (Nat.lt_of_lt_of_le (by decide) hleast)
      (Int.ofNat_le.mpr hleast) hshare

/-- Components of two files. -/
def twoFiles : Components :=
  Keyed.ofList [("a.f", { id := "a.f", name := "f", kind := "function", filePath := "/r/a", relativePath := "a" }),
    ("b.g", { id := "b.g", name := "g", kind := "function", filePath := "/r/b", relativePath := "b" })]

/-- Commits of these files, of which five change both; one changes nothing and one a file without components. -/
def fewCommits : List Commit :=
  [⟨"1", ["b", "a", "b"]⟩, ⟨"2", ["a", "b"]⟩, ⟨"3", []⟩, ⟨"4", ["a", "c", "b"]⟩, ⟨"5", ["a"]⟩, ⟨"6", ["a", "b"]⟩,
    ⟨"7", ["b", "a"]⟩]

/-- The lines of a log of these commits. -/
def fewLines : List String :=
  ["COMMIT:1", "", "b", "a", "b", "", "COMMIT:2", "", "a", "b", "COMMIT:3", "COMMIT:4", "", "a", "c", " ", "b",
    "COMMIT:5", "a", "COMMIT:6", "", "a", "b", "", "COMMIT:7", "b", "a", ""]

/-- The two files can only be coupled with each other, and by five commits. -/
theorem few_commits_counted :
    (∀ k ∈ fewCommits, ∀ f ∈ k.files, IsFileName f) ∧ Tells fewLines fewCommits ∧
      ∃ found, Repository.couplingsOf {} true (.finished 0 (Text.join "\n" fewLines) "") twoFiles = .ok found ∧
        found.length ≤ 100 ∧ (found.map fun c => (c.fileA, c.fileB)).Nodup ∧
        ∀ c ∈ found, Counted twoFiles (moderate twoFiles 50 fewCommits) c ∧ c.shared = 5 := by
  have hnames : ∀ k ∈ fewCommits, ∀ f ∈ k.files, IsFileName f := by decide +kernel
  have htells : Tells fewLines fewCommits := ⟨by decide +kernel, by decide +kernel⟩
  obtain ⟨found, hfound, hlength, hnodup, hcounted, -⟩ :=
    couplings_count_commits twoFiles fewCommits fewLines "" hnames htells
  refine ⟨hnames, htells, found, hfound, hlength, hnodup, fun c hc => ⟨(hcounted c hc).1, ?_⟩⟩
  obtain ⟨⟨hordered, ⟨k, hk, hfileA⟩, ⟨l, hl, hfileB⟩, hshared, -, -⟩, hleast⟩ := hcounted c hc
  have hfiles : ∀ k ∈ twoFiles.values, ∀ l ∈ twoFiles.values, k.relativePath < l.relativePath →
      touching (moderate twoFiles 50 fewCommits) [k.relativePath, l.relativePath] = 5 := by
    decide +kernel
  rw [hshared, ← hfileA, ← hfileB]
  exact hfiles k hk l hl (by rwa [hfileA, hfileB])

end RepoAtlas.Report
