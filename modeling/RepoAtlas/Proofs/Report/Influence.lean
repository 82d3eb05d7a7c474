import RepoAtlas.Proofs.Report.Coupling

/-!
# Which commits influence the couplings

What is counted of a commit are its files with components, so a commit of any size counts as long as at most
fifty of its files have components.
-/

namespace RepoAtlas.Report

/-! ## Entries of a log -/

/-- Whether a line begins a commit. -/
def isMark (line : String) : Bool :=
  Text.begins (Text.strip line) commitMark

/-- The part of a log that tells of one commit: a line with the mark and the lines below it. -/
structure Entry where
  heading : String
  body : List String
  oneLine : ∀ line ∈ heading :: body, '\n' ∉ line.toList
  marked : isMark heading = true
  unmarked : ∀ line ∈ body, isMark line = false

/-- The commit that an entry tells of. -/
def Entry.commit (e : Entry) : Commit where
  hash := e.heading
  files := (e.body.map Text.strip).filter (· ≠ "")

/-- What stands in a log around an entry. Up to the next mark, only blank lines come after the entry. -/
structure Surroundings where
  before : List String
  after : List String
  oneLine : ∀ line ∈ before ++ after, '\n' ∉ line.toList
  closed : ∀ line ∈ after.takeWhile (!isMark ·), isBlankLine line = true

/-- The log with an entry. -/
def Surroundings.withEntry (s : Surroundings) (e : Entry) : String :=
  Text.join "\n" (s.before ++ (e.heading :: e.body) ++ s.after)

/-- The log without the entry. -/
def Surroundings.bare (s : Surroundings) : String :=
  Text.join "\n" (s.before ++ s.after)

variable {tracked files names lines after : List String} {line a b : String} {cs : Components}
  {limits : CouplingLimits} {s : Surroundings} {e : Entry} {log : String} {changed : List (List String)}

/-! ## Reading entries -/

/-- A mark ends a commit. -/
theorem commitsFrom_of_isMark (h : isMark line = true) :
    commitsFrom tracked files (line :: lines) =
      [files].filter (fun c => !c.isEmpty) ++ commitsFrom tracked [] lines := by
  rw [isMark] at h
  rw [commitsFrom]
  simp only [h, if_true]
  cases files <;> rfl

/-- Another line may name a file. -/
theorem commitsFrom_of_not_isMark (h : isMark line = false) :
    commitsFrom tracked files (line :: lines) =
      commitsFrom tracked (gather tracked files (Text.strip line)) lines := by
  rw [isMark] at h
  rw [commitsFrom, gather]
  simp only [h, Bool.false_eq_true, if_false]
  split <;> rfl

/-- Where a commit ends, what was read of it is complete. -/
theorem commitsFrom_of_closed (htracked : "" ∉ tracked)
    (hclosed : ∀ line ∈ after.takeWhile (!isMark ·), isBlankLine line = true) :
    commitsFrom tracked files after = [files].filter (fun c => !c.isEmpty) ++ commitsFrom tracked [] after := by
  induction after with
  | nil => cases files <;> rfl
  | cons line after ih =>
    cases hmark : isMark line with
    | true => rw [commitsFrom_of_isMark hmark, commitsFrom_of_isMark hmark]; rfl
    | false =>
      have htake : (line :: after).takeWhile (!isMark ·) = line :: after.takeWhile (!isMark ·) :=
        List.takeWhile_cons_of_pos (by simp [hmark])
      rw [htake, List.forall_mem_cons] at hclosed
      rw [commitsFrom_blank htracked hclosed.1, commitsFrom_blank htracked hclosed.1, ih hclosed.2]

/-- A log is read part by part, if it is divided where a commit ends. -/
theorem commitsFrom_append_of_closed (htracked : "" ∉ tracked)
    (hclosed : ∀ line ∈ after.takeWhile (!isMark ·), isBlankLine line = true) (lines : List String) :
    commitsFrom tracked files (lines ++ after) = commitsFrom tracked files lines ++ commitsFrom tracked [] after := by
  induction lines generalizing files with
  | nil =>
    rw [List.nil_append, commitsFrom_of_closed htracked hclosed]
    cases files <;> rfl
  | cons line lines ih =>
    cases hmark : isMark line with
    | true => rw [List.cons_append, commitsFrom_of_isMark hmark, commitsFrom_of_isMark hmark, ih, List.append_assoc]
    | false => rw [List.cons_append, commitsFrom_of_not_isMark hmark, commitsFrom_of_not_isMark hmark, ih]

/-- Lines without marks are one commit. -/
theorem commitsFrom_of_unmarked (htracked : "" ∉ tracked) (h : ∀ line ∈ lines, isMark line = false) :
    commitsFrom tracked files lines =
      [((lines.map Text.strip).filter (· ≠ "")).foldl (gather tracked) files].filter fun c => !c.isEmpty := by
  induction lines generalizing files with
  | nil => cases files <;> rfl
  | cons line lines ih =>
    rw [List.forall_mem_cons] at h
    rw [commitsFrom_of_not_isMark h.1, ih h.2, List.map_cons]
    refine congrArg (fun read => List.filter _ [read]) ?_
    by_cases hempty : Text.strip line = ""
    · have hgather : gather tracked files "" = files := by simp [gather, htracked]
      rw [hempty, hgather, List.filter_cons_of_neg (by simp)]
    · rw [List.filter_cons_of_pos (by simpa using hempty), List.foldl_cons]

/-- What an entry adds to the commits that count: its tracked files, if there are some and not too many. -/
def Entry.counted (limits : CouplingLimits) (cs : Components) (e : Entry) : List (List String) :=
  [e.commit.read (trackedFiles cs)].filter fun c => !c.isEmpty && decide (c.length ≤ limits.files)

/-- The lines of an entry are its commit. -/
theorem commitsFrom_lines (cs : Components) (e : Entry) :
    commitsFrom (trackedFiles cs) [] (e.heading :: e.body) =
      [e.commit.read (trackedFiles cs)].filter fun c => !c.isEmpty := by
  rw [commitsFrom_of_isMark e.marked, commitsFrom_of_unmarked (empty_not_mem_trackedFiles cs) e.unmarked]
  rfl

/-- The commits that are read before an entry. -/
def Surroundings.earlier (limits : CouplingLimits) (cs : Components) (s : Surroundings) : List (List String) :=
  (commitsFrom (trackedFiles cs) [] s.before).filter fun c => c.length ≤ limits.files

/-- The commits that are read after an entry. -/
def Surroundings.later (limits : CouplingLimits) (cs : Components) (s : Surroundings) : List (List String) :=
  (commitsFrom (trackedFiles cs) [] s.after).filter fun c => c.length ≤ limits.files

/-- A log without the entry has the earlier and the later commits. -/
theorem commits_bare (limits : CouplingLimits) (cs : Components) (s : Surroundings) :
    commits limits (trackedFiles cs) s.bare = s.earlier limits cs ++ s.later limits cs := by
  rw [Surroundings.bare, commits_join_lines limits cs s.oneLine,
    commitsFrom_append_of_closed (empty_not_mem_trackedFiles cs) s.closed, List.filter_append]
  rfl

/-- With the entry, its own stands between them. -/
theorem commits_withEntry (limits : CouplingLimits) (cs : Components) (s : Surroundings) (e : Entry) :
    commits limits (trackedFiles cs) (s.withEntry e) =
      s.earlier limits cs ++ e.counted limits cs ++ s.later limits cs := by
  have honeLine : ∀ line ∈ s.before ++ (e.heading :: e.body) ++ s.after, '\n' ∉ line.toList := by
    intro line hline
    simp only [List.mem_append] at hline
    rcases hline with (hline | hline) | hline
    · exact s.oneLine line (List.mem_append_left _ hline)
    · exact e.oneLine line hline
    · exact s.oneLine line (List.mem_append_right _ hline)
  have hentry : ∀ line ∈ (e.heading :: e.body).takeWhile (!isMark ·), isBlankLine line = true := by
    rw [List.takeWhile_cons_of_neg (by simp [e.marked])]
    exact List.forall_mem_nil _
  have hcounted : (commitsFrom (trackedFiles cs) [] (e.heading :: e.body)).filter
      (fun c => c.length ≤ limits.files) = e.counted limits cs := by
    rw [commitsFrom_lines, List.filter_filter, Entry.counted]
    simp only [Bool.and_comm]
  rw [Surroundings.withEntry, commits_join_lines limits cs honeLine,
    commitsFrom_append_of_closed (empty_not_mem_trackedFiles cs) s.closed,
    commitsFrom_append_of_closed (empty_not_mem_trackedFiles cs) hentry, List.filter_append, List.filter_append,
    hcounted]
  rfl

/-! ## Entries that add nothing -/

/-- A stripped line that is no mark and not blank is a file name. -/
theorem isFileName_strip (hline : '\n' ∉ line.toList) (hmark : isMark line = false) (hne : Text.strip line ≠ "") :
    IsFileName (Text.strip line) where
  nonempty := hne
  oneLine := fun hmem => hline (Text.mem_of_mem_strip hmem)
  trimmed := Text.trimmed_strip line
  unmarked := hmark

/-- The files of an entry are file names. -/
theorem isFileName_of_mem_files {f : String} (h : f ∈ e.commit.files) : IsFileName f := by
  obtain ⟨hmem, hne⟩ := List.mem_filter.mp h
  obtain ⟨line, hline, rfl⟩ := List.mem_map.mp hmem
  exact isFileName_strip (e.oneLine line (List.mem_cons_of_mem _ hline)) (e.unmarked line hline) (by simpa using hne)

/-- As many files of an entry are read as are tracked. -/
theorem length_read_commit (cs : Components) (e : Entry) :
    (e.commit.read (trackedFiles cs)).length = (e.commit.trackedFiles cs).card :=
  length_read fun _ => isFileName_of_mem_files

/-- An entry does not count if it has no tracked file or too many. -/
theorem counted_eq_nil_iff :
    e.counted limits cs = [] ↔ e.commit.trackedFiles cs = ∅ ∨ limits.files < (e.commit.trackedFiles cs).card := by
  rw [Entry.counted, List.filter_eq_nil_iff, List.forall_mem_singleton, ← Finset.card_eq_zero, ← length_read_commit,
    List.length_eq_zero_iff]
  simp only [Bool.and_eq_true, Bool.not_eq_true', List.isEmpty_eq_false_iff, decide_eq_true_eq, not_and_or, not_not,
    not_le]

/-- Otherwise its tracked files count. -/
theorem counted_of_le (hsome : e.commit.trackedFiles cs ≠ ∅) (hle : (e.commit.trackedFiles cs).card ≤ limits.files) :
    e.counted limits cs = [e.commit.read (trackedFiles cs)] := by
  have hne : ¬e.counted limits cs = [] := by
    rw [counted_eq_nil_iff, not_or, not_lt]
    exact ⟨hsome, hle⟩
  rw [Entry.counted, List.filter_singleton] at hne ⊢
  cases hread : (!(e.commit.read (trackedFiles cs)).isEmpty &&
      decide ((e.commit.read (trackedFiles cs)).length ≤ limits.files)) with
  | true => rfl
  | false => exact absurd (by rw [hread]; rfl) hne

/-! ## What is read of any log -/

/-- A property of the files read so far that every further name keeps holds of all commits of a log. -/
theorem forall_mem_commitsFrom {P : List String → Prop} (hnil : P [])
    (hgather : ∀ files, P files → ∀ line ∈ lines, isMark line = false → P (gather tracked files (Text.strip line)))
    (hfiles : P files) : ∀ c ∈ commitsFrom tracked files lines, P c := by
  induction lines generalizing files with
  | nil =>
    intro c hc
    rw [commitsFrom] at hc
    split at hc
    · cases hc
    · exact List.mem_singleton.mp hc ▸ hfiles
  | cons line lines ih =>
    have hrest : ∀ files, P files → ∀ other ∈ lines, isMark other = false →
        P (gather tracked files (Text.strip other)) :=
      fun files hP other hother => hgather files hP other (List.mem_cons_of_mem line hother)
    intro c hc
    cases hmark : isMark line with
    | true =>
      rw [commitsFrom_of_isMark hmark, List.mem_append] at hc
      rcases hc with hc | hc
      · exact List.mem_singleton.mp (List.mem_filter.mp hc).1 ▸ hfiles
      · exact ih hrest hnil c hc
    | false =>
      rw [commitsFrom_of_not_isMark hmark] at hc
      exact ih hrest (hgather files hfiles line List.mem_cons_self hmark) c hc

/-- What a log can give of a commit: tracked files by names that can stand on a line, each once. -/
structure IsReading (cs : Components) (files : List String) : Prop where
  nodup : files.Nodup
  component : ∀ f ∈ files, HasComponent cs f
  name : ∀ f ∈ files, IsFileName f

/-- A line more keeps what is read a reading. -/
theorem IsReading.gather {files : List String} (h : IsReading cs files) (hline : '\n' ∉ line.toList)
    (hmark : isMark line = false) : IsReading cs (gather (trackedFiles cs) files (Text.strip line)) := by
  have hnodup : ([Text.strip line].foldl (Report.gather (trackedFiles cs)) files).Nodup := nodup_foldl_gather h.nodup
  have hmem : ∀ f ∈ Report.gather (trackedFiles cs) files (Text.strip line),
      f ∈ files ∨ f = Text.strip line ∧ f ∈ trackedFiles cs := fun f hf => by
    have hmem : f ∈ [Text.strip line].foldl (Report.gather (trackedFiles cs)) files := hf
    simpa using mem_foldl_gather.mp hmem
  refine ⟨hnodup, fun f hf => ?_, fun f hf => ?_⟩
  · exact (hmem f hf).elim (h.component f) fun hnew => (mem_trackedFiles_iff.mp hnew.2).1
  · rcases hmem f hf with hold | ⟨rfl, htracked⟩
    · exact h.name f hold
    · exact isFileName_strip hline hmark (mem_trackedFiles_iff.mp htracked).2

/-- Every commit of a log is a reading. -/
theorem isReading_of_mem_commits {c : List String} (hc : c ∈ commits limits (trackedFiles cs) log) :
    IsReading cs c := by
  have hnil : IsReading cs [] := ⟨.nil, List.forall_mem_nil _, List.forall_mem_nil _⟩
  refine forall_mem_commitsFrom hnil (fun files hfiles line hline hmark => ?_) hnil c (List.mem_filter.mp hc).1
  exact hfiles.gather (Text.not_mem_of_mem_split hline) hmark

/-- There are no couplings exactly if no two files that change together do so often enough. -/
theorem couplings_eq_nil_iff :
    couplings limits cs log = [] ↔
      ∀ a b, a < b → (∃ c ∈ commits limits (trackedFiles cs) log, a ∈ c ∧ b ∈ c) →
        coupling? limits (commits limits (trackedFiles cs) log) a b = none := by
  have hnodup : ∀ c ∈ commits limits (trackedFiles cs) log, c.Nodup :=
    fun c hc => (isReading_of_mem_commits hc).nodup
  have hempty : couplings limits cs log = [] ↔ found limits (commits limits (trackedFiles cs) log) = [] := by
    rw [couplings_eq, List.take_eq_nil_iff, ← List.length_eq_zero_iff, List.length_mergeSort, List.length_eq_zero_iff]
    exact or_iff_right (by decide)
  rw [hempty, found, List.filterMap_eq_nil_iff, Prod.forall]
  simp only [mem_changedPairs_iff hnodup, and_imp]

/-! ## Entries that make a difference -/

/-- The changes of a file are those that it shares with itself. -/
theorem changes_eq_sharedChanges (all : List (List String)) (f : String) : changes all f = sharedChanges all f f := by
  simp only [changes, sharedChanges, Bool.and_self]

/-- Shared changes of two logs add up. -/
theorem sharedChanges_append (all more : List (List String)) (a b : String) :
    sharedChanges (all ++ more) a b = sharedChanges all a b + sharedChanges more a b := by
  rw [sharedChanges, List.filter_append, List.length_append]
  rfl

/-- Copies of a commit count as often. -/
theorem sharedChanges_replicate (n : Nat) (files : List String) (a b : String) :
    sharedChanges (List.replicate n files) a b = if a ∈ files ∧ b ∈ files then n else 0 := by
  rw [sharedChanges, List.filter_replicate]
  simp only [List.contains_eq_mem, Bool.and_eq_true, decide_eq_true_eq]
  split <;> simp

/-- One commit counts once. -/
theorem sharedChanges_singleton (files : List String) (a b : String) :
    sharedChanges [files] a b = if a ∈ files ∧ b ∈ files then 1 else 0 :=
  sharedChanges_replicate 1 files a b

/-- Changes are shared both ways. -/
theorem sharedChanges_comm (all : List (List String)) (a b : String) :
    sharedChanges all a b = sharedChanges all b a := by
  simp only [sharedChanges, Bool.and_comm]

/-- Two files are not coupled if they share too few changes, or too few of theirs. -/
theorem coupling?_eq_none_iff {all : List (List String)} :
    coupling? limits all a b = none ↔
      ¬(limits.shared ≤ sharedChanges all a b ∧ (sharedChanges all a b).toFloat /
        (min (sharedChanges all a a) (sharedChanges all b b)).toFloat ≥ limits.ratio) := by
  simp only [coupling?, changes_eq_sharedChanges, ite_eq_right_iff, Bool.and_eq_true, decide_eq_true_eq, reduceCtorEq,
    imp_false]

/-- Not being coupled goes both ways. -/
theorem coupling?_eq_none_comm {all : List (List String)} :
    coupling? limits all a b = none ↔ coupling? limits all b a = none := by
  rw [coupling?_eq_none_iff, coupling?_eq_none_iff, sharedChanges_comm all a b, min_comm]

/-- Fewer commits than have to be shared show no couplings. -/
theorem couplings_eq_nil_of_few (h : ((commits limits (trackedFiles cs) log).length : Int) < limits.shared) :
    couplings limits cs log = [] := by
  refine couplings_eq_nil_iff.mpr fun a b _ _ => coupling?_eq_none_iff.mpr fun hoften => ?_
  have hlength : sharedChanges (commits limits (trackedFiles cs) log) a b ≤ _ := List.length_filter_le _ _
  omega

/-- Two files that all of five commits change are coupled. -/
theorem couplings_ne_nil_of_five (hab : a < b) (hboth : ∀ c ∈ commits {} (trackedFiles cs) log, a ∈ c ∧ b ∈ c)
    (hfive : (commits {} (trackedFiles cs) log).length = 5) : couplings {} cs log ≠ [] := by
  have hcount : ∀ x ∈ [a, b], ∀ y ∈ [a, b], sharedChanges (commits {} (trackedFiles cs) log) x y = 5 := by
    intro x hx y hy
    have hmem : ∀ c ∈ commits {} (trackedFiles cs) log, ∀ f ∈ [a, b], f ∈ c :=
      fun c hc => by simpa using hboth c hc
    rw [sharedChanges, List.filter_eq_self.mpr, hfive]
    intro c hc
    simpa using ⟨hmem c hc x hx, hmem c hc y hy⟩
  obtain ⟨c, hc⟩ := List.exists_mem_of_length_pos (by rw [hfive]; decide)
  rw [ne_eq, couplings_eq_nil_iff]
  intro hnone
  have hrare := hnone a b hab ⟨c, hc, hboth c hc⟩
  rw [coupling?_eq_none_iff, hcount a (by simp) b (by simp), hcount a (by simp) a (by simp),
    hcount b (by simp) b (by simp)] at hrare
  exact absurd hrare (by decide +kernel)

/-- New tracked names are gathered as they stand. -/
theorem foldl_gather_eq_append (hnodup : (files ++ names).Nodup) (htracked : ∀ f ∈ names, f ∈ tracked) :
    names.foldl (gather tracked) files = files ++ names := by
  induction names generalizing files with
  | nil => rw [List.append_nil, List.foldl_nil]
  | cons name names ih =>
    rw [List.forall_mem_cons] at htracked
    have hnew : name ∉ files := fun hmem => List.disjoint_of_nodup_append hnodup hmem List.mem_cons_self
    have hgather : gather tracked files name = files ++ [name] := by simp [gather, htracked.1, hnew]
    rw [List.append_cons] at hnodup
    rw [List.foldl_cons, hgather, ih hnodup htracked.2, List.append_cons files name names]

/-- A reading is read as it is. -/
theorem IsReading.read_eq (h : IsReading cs files) (hash : String) :
    Commit.read (trackedFiles cs) ⟨hash, files⟩ = files :=
  foldl_gather_eq_append h.nodup fun f hf => mem_trackedFiles_iff.mpr ⟨h.component f hf, (h.name f hf).nonempty⟩

/-- A log of commits that change given files. -/
def history (changed : List (List String)) (h : ∀ files ∈ changed, IsReading cs files) : Surroundings where
  before := (changed.map (Commit.mk "")).flatMap Commit.lines
  after := []
  oneLine := by
    intro line hline
    rw [List.append_nil, List.flatMap_map, List.mem_flatMap] at hline
    obtain ⟨files, hfiles, hline⟩ := hline
    rcases List.mem_cons.mp hline with rfl | hline
    · exact (by decide : '\n' ∉ (commitMark ++ "").toList)
    · exact ((h files hfiles).name line hline).oneLine
  closed := List.forall_mem_nil _

/-- The earlier commits of a history are those it was made from. -/
theorem earlier_history (h : ∀ files ∈ changed, IsReading cs files)
    (hsmall : ∀ files ∈ changed, files ≠ [] ∧ files.length ≤ limits.files) :
    (history changed h).earlier limits cs = changed := by
  have hnames : ∀ k ∈ changed.map (Commit.mk ""), ∀ f ∈ k.files, IsFileName f := by
    rw [List.forall_mem_map]
    exact fun files hfiles => (h files hfiles).name
  have hread : (changed.map (Commit.mk "")).map (Commit.read (trackedFiles cs)) = changed := by
    rw [List.map_map]
    exact (List.map_congr_left fun files hfiles => (h files hfiles).read_eq "").trans (List.map_id changed)
  rw [Surroundings.earlier, history, commitsFrom_flatMap hnames, hread, List.filter_cons_of_neg (by simp),
    List.filter_filter, List.filter_eq_self]
  intro files hfiles
  simpa using ⟨(hsmall files hfiles).2, (hsmall files hfiles).1⟩

/-- So are all commits of its log. -/
theorem commits_history (h : ∀ files ∈ changed, IsReading cs files)
    (hsmall : ∀ files ∈ changed, files ≠ [] ∧ files.length ≤ limits.files) :
    commits limits (trackedFiles cs) (history changed h).bare = changed := by
  rw [commits_bare, earlier_history h hsmall]
  exact List.append_nil changed

/-- An entry that counts is added to them. -/
theorem commits_history_withEntry (h : ∀ files ∈ changed, IsReading cs files)
    (hsmall : ∀ files ∈ changed, files ≠ [] ∧ files.length ≤ limits.files) (hsome : e.commit.trackedFiles cs ≠ ∅)
    (hle : (e.commit.trackedFiles cs).card ≤ limits.files) :
    commits limits (trackedFiles cs) ((history changed h).withEntry e) =
      changed ++ [e.commit.read (trackedFiles cs)] := by
  rw [commits_withEntry, earlier_history h hsmall, counted_of_le hsome hle]
  exact List.append_nil _

/-- A tracked file of an entry is read. -/
theorem mem_read_of_mem_trackedFiles {f : String} (h : f ∈ e.commit.trackedFiles cs) :
    f ∈ e.commit.read (trackedFiles cs) ∧ HasComponent cs f ∧ IsFileName f := by
  rw [Commit.trackedFiles, Finset.mem_filter, List.mem_toFinset] at h
  have hname := isFileName_of_mem_files h.1
  exact ⟨mem_read_iff.mpr ⟨h.1, mem_trackedFiles_iff.mpr ⟨h.2, hname.nonempty⟩⟩, h.2, hname⟩

/-- An entry with two tracked files can be the fifth commit that changes both of them. -/
theorem difference_of_lt (hab : a < b) (ha : a ∈ e.commit.trackedFiles cs) (hb : b ∈ e.commit.trackedFiles cs)
    (hle : ((e.commit.trackedFiles cs).card : Int) ≤ 50) :
    ∃ s : Surroundings, couplings {} cs (s.withEntry e) ≠ couplings {} cs s.bare := by
  obtain ⟨hreada, hcompa, hnamea⟩ := mem_read_of_mem_trackedFiles ha
  obtain ⟨hreadb, hcompb, hnameb⟩ := mem_read_of_mem_trackedFiles hb
  have hpair : IsReading cs [a, b] :=
    ⟨by simpa using String.ne_of_lt hab, by simpa using ⟨hcompa, hcompb⟩, by simpa using ⟨hnamea, hnameb⟩⟩
  have hreading : ∀ files ∈ List.replicate 4 [a, b], IsReading cs files :=
    fun files hfiles => List.eq_of_mem_replicate hfiles ▸ hpair
  have hsmall : ∀ files ∈ List.replicate 4 [a, b], files ≠ [] ∧ (files.length : Int) ≤ 50 := by simp
  have hbare : commits {} (trackedFiles cs) (history _ hreading).bare = _ := commits_history hreading hsmall
  have hwith : commits {} (trackedFiles cs) ((history _ hreading).withEntry e) = _ :=
    commits_history_withEntry hreading hsmall (Finset.ne_empty_of_mem ha) hle
  have hnone : couplings {} cs (history _ hreading).bare = [] :=
    couplings_eq_nil_of_few (by rw [hbare, List.length_replicate]; decide)
  have hsome : couplings {} cs ((history _ hreading).withEntry e) ≠ [] := by
    refine couplings_ne_nil_of_five hab ?_ ?_ <;> rw [hwith]
    · intro c hc
      rcases List.mem_append.mp hc with hc | hc
      · simp [List.eq_of_mem_replicate hc]
      · exact List.mem_singleton.mp hc ▸ ⟨hreada, hreadb⟩
    · rw [List.length_append, List.length_replicate, List.length_singleton]
  exact ⟨history _ hreading, fun heq => hsome (heq.trans hnone)⟩

/-- Commits of two files: five change both, eleven more the first and twelve more the second. -/
def lopsided (a b : String) : List (List String) :=
  List.replicate 5 [a, b] ++ List.replicate 11 [a] ++ List.replicate 12 [b]

/-- The commits of this history change both files or one. -/
theorem eq_of_mem_lopsided (h : files ∈ lopsided a b) : files = [a, b] ∨ files = [a] ∨ files = [b] := by
  simpa [lopsided, or_assoc] using h

/-- It has five shared changes, 16 of one file and 17 of the other. -/
theorem sharedChanges_lopsided (hab : a ≠ b) :
    sharedChanges (lopsided a b) a b = 5 ∧ sharedChanges (lopsided a b) a a = 16 ∧
      sharedChanges (lopsided a b) b b = 17 := by
  simp only [lopsided, sharedChanges_append, sharedChanges_replicate, List.mem_cons, List.not_mem_nil, hab, hab.symm,
    or_true, or_false, and_true, and_false, if_true, if_false, Nat.reduceAdd, and_self]

/-- A single tracked file is read alone. -/
theorem read_of_trackedFiles_eq_singleton (h : e.commit.trackedFiles cs = {a}) :
    e.commit.read (trackedFiles cs) = [a] := by
  have hlength := length_read_commit cs e
  rw [h, Finset.card_singleton] at hlength
  obtain ⟨f, hf⟩ := List.length_eq_one_iff.mp hlength
  have hmem := (mem_read_of_mem_trackedFiles (h ▸ Finset.mem_singleton_self a)).1
  rw [hf, List.mem_singleton] at hmem
  rw [hf, hmem]

/-- An entry with one tracked file can make the share of the commits that change another one with it too small. -/
theorem difference_of_ne (hab : a ≠ b) (ha : e.commit.trackedFiles cs = {a}) (hcompb : HasComponent cs b)
    (hnameb : IsFileName b) : ∃ s : Surroundings, couplings {} cs (s.withEntry e) ≠ couplings {} cs s.bare := by
  obtain ⟨-, hcompa, hnamea⟩ := mem_read_of_mem_trackedFiles (ha ▸ Finset.mem_singleton_self a)
  have hreading : ∀ files ∈ lopsided a b, IsReading cs files := by
    intro files hfiles
    rcases eq_of_mem_lopsided hfiles with rfl | rfl | rfl
    · exact ⟨by simpa using hab, by simpa using ⟨hcompa, hcompb⟩, by simpa using ⟨hnamea, hnameb⟩⟩
    · exact ⟨List.nodup_singleton a, by simpa using hcompa, by simpa using hnamea⟩
    · exact ⟨List.nodup_singleton b, by simpa using hcompb, by simpa using hnameb⟩
  have hsmall : ∀ files ∈ lopsided a b, files ≠ [] ∧ (files.length : Int) ≤ 50 := by
    intro files hfiles
    rcases eq_of_mem_lopsided hfiles with rfl | rfl | rfl <;> simp
  have hbare : commits {} (trackedFiles cs) (history _ hreading).bare = _ := commits_history hreading hsmall
  have hwith : commits {} (trackedFiles cs) ((history _ hreading).withEntry e) = _ :=
    commits_history_withEntry hreading hsmall (ha ▸ Finset.singleton_ne_empty a) (by simp [ha])
  rw [read_of_trackedFiles_eq_singleton ha] at hwith
  obtain ⟨hshared, hchangesa, hchangesb⟩ := sharedChanges_lopsided hab
  -- Without the entry five of sixteen commits change both files, which is enough.
  have hclose : coupling? {} (lopsided a b) a b ≠ none := by
    rw [ne_eq, coupling?_eq_none_iff, hshared, hchangesa, hchangesb]
    decide +kernel
  have hsome : couplings {} cs (history _ hreading).bare ≠ [] := by
    have hmem : [a, b] ∈ lopsided a b := by simp [lopsided]
    rw [ne_eq, couplings_eq_nil_iff, hbare]
    intro hnone
    rcases Text.lt_or_lt_of_ne hab with hlt | hgt
    · exact hclose (hnone a b hlt ⟨_, hmem, by simp, by simp⟩)
    · exact hclose (coupling?_eq_none_comm.mpr (hnone b a hgt ⟨_, hmem, by simp, by simp⟩))
  -- With the entry five of seventeen commits change both files, which is too few.
  have hloose : coupling? {} (lopsided a b ++ [[a]]) a b = none := by
    rw [coupling?_eq_none_iff, sharedChanges_append, sharedChanges_append, sharedChanges_append,
      sharedChanges_singleton, sharedChanges_singleton, sharedChanges_singleton, hshared, hchangesa, hchangesb]
    simp only [List.mem_singleton, hab.symm, and_false, and_self, if_true, if_false]
    decide +kernel
  have hnone : couplings {} cs ((history _ hreading).withEntry e) = [] := by
    rw [couplings_eq_nil_iff, hwith]
    rintro x y hxy ⟨c, hc, hx, hy⟩
    have hfiles : ∀ f ∈ c, f = a ∨ f = b := by
      rcases List.mem_append.mp hc with hc | hc
      · rcases eq_of_mem_lopsided hc with rfl | rfl | rfl <;> simp
      · simp [List.mem_singleton.mp hc]
    have hne : x ≠ y := String.ne_of_lt hxy
    rcases hfiles x hx with hxa | hxb <;> rcases hfiles y hy with hya | hyb
    · exact absurd (hxa.trans hya.symm) hne
    · rw [hxa, hyb]
      exact hloose
    · rw [hxb, hya]
      exact coupling?_eq_none_comm.mp hloose
    · exact absurd (hxb.trans hyb.symm) hne
  exact ⟨history _ hreading, fun heq => hsome (heq.symm.trans hnone)⟩

/-! ## Entries without influence -/

/-- An entry that does not count changes nothing. -/
theorem couplings_withEntry_of_counted_eq_nil (h : e.counted limits cs = []) (s : Surroundings) :
    couplings limits cs (s.withEntry e) = couplings limits cs s.bare := by
  rw [couplings_eq, couplings_eq, commits_withEntry, commits_bare, h, List.append_nil]

/-- One file alone is not coupled. -/
theorem couplings_eq_nil_of_alone (h : ∀ f, HasComponent cs f → IsFileName f → f = a) (log : String) :
    couplings limits cs log = [] := by
  refine couplings_eq_nil_iff.mpr ?_
  rintro x y hxy ⟨c, hc, hx, hy⟩
  have hreading := isReading_of_mem_commits hc
  have halone : ∀ f ∈ c, f = a := fun f hf => h f (hreading.component f hf) (hreading.name f hf)
  exact absurd ((halone x hx).trans (halone y hy).symm) (String.ne_of_lt hxy)

/-- An entry never influences couplings exactly if none of its files has a component, or more than fifty have,
or a single one has and no other file with a component has a name that a log can tell. -/
theorem without_influence_iff (cs : Components) (e : Entry) :
    (∀ (s : Surroundings) (errors : String),
        Repository.couplingsOf {} true (.finished 0 (s.withEntry e) errors) cs =
          Repository.couplingsOf {} true (.finished 0 s.bare errors) cs) ↔
      e.commit.trackedFiles cs = ∅ ∨ 50 < (e.commit.trackedFiles cs).card ∨
        ∃ only, e.commit.trackedFiles cs = {only} ∧ ∀ f, HasComponent cs f → IsFileName f → f = only := by
  simp only [couplingsOf_finished, Except.ok.injEq, forall_const]
  constructor
  · intro hsame
    by_contra hcounts
    push Not at hcounts
    obtain ⟨hsome, hle, hothers⟩ := hcounts
    have hdifference : ∃ s : Surroundings, couplings {} cs (s.withEntry e) ≠ couplings {} cs s.bare := by
      rcases Nat.lt_or_ge 1 (e.commit.trackedFiles cs).card with hmany | hone
      · obtain ⟨a, ha, b, hb, hab⟩ := Finset.one_lt_card.mp hmany
        rcases Text.lt_or_lt_of_ne hab with hlt | hgt
        · exact difference_of_lt hlt ha hb (Int.ofNat_le.mpr hle)
        · exact difference_of_lt hgt hb ha (Int.ofNat_le.mpr hle)
      · have hcard := le_antisymm hone (Finset.card_pos.mpr hsome)
        obtain ⟨only, honly⟩ := Finset.card_eq_one.mp hcard
        obtain ⟨f, hcomponent, hname, hne⟩ := hothers only honly
        exact difference_of_ne hne.symm honly hcomponent hname
    obtain ⟨s, hs⟩ := hdifference
    exact hs (hsame s)
  · rintro (hnone | hmany | ⟨only, -, halone⟩) s
    · exact couplings_withEntry_of_counted_eq_nil (counted_eq_nil_iff.mpr (Or.inl hnone)) s
    · exact couplings_withEntry_of_counted_eq_nil (counted_eq_nil_iff.mpr (Or.inr (Int.ofNat_lt.mpr hmany))) s
    · rw [couplings_eq_nil_of_alone halone, couplings_eq_nil_of_alone halone]

/-- A commit of fifty-one files, of which two have components. -/
def bulkEntry : Entry where
  heading := "COMMIT:5"
  body := "" :: "a" :: "b" :: (List.range 49).map fun n => "c" ++ toString n
  oneLine := by decide +kernel
  marked := by decide +kernel
  unmarked := by decide +kernel

/-- Four commits that change these two files. -/
def fourCommits : Surroundings where
  before := ["COMMIT:1", "", "a", "b", "COMMIT:2", "", "a", "b", "COMMIT:3", "", "a", "b", "COMMIT:4", "", "a", "b"]
  after := [""]
  oneLine := by decide +kernel
  closed := by decide +kernel

/-- A commit of more than fifty files is the fifth that couples two of them. -/
theorem bulk_entry_counted :
    50 < bulkEntry.commit.files.toFinset.card ∧
      Repository.couplingsOf {} true (.finished 0 (fourCommits.withEntry bulkEntry) "") twoFiles ≠
        Repository.couplingsOf {} true (.finished 0 fourCommits.bare "") twoFiles := by
  have hbare : commits {} (trackedFiles twoFiles) fourCommits.bare = List.replicate 4 ["a", "b"] := by
    rw [commits_bare]
    decide +kernel
  have hwith : commits {} (trackedFiles twoFiles) (fourCommits.withEntry bulkEntry) =
      List.replicate 5 ["a", "b"] := by
    rw [commits_withEntry]
    decide +kernel
  have hnone : couplings {} twoFiles fourCommits.bare = [] :=
    couplings_eq_nil_of_few (by rw [hbare, List.length_replicate]; decide)
  have hsome : couplings {} twoFiles (fourCommits.withEntry bulkEntry) ≠ [] := by
    refine couplings_ne_nil_of_five (a := "a") (b := "b") (by decide) ?_ ?_ <;> rw [hwith]
    · intro c hc
      simp [List.eq_of_mem_replicate hc]
    · rw [List.length_replicate]
  refine ⟨by decide +kernel, ?_⟩
  rw [couplingsOf_finished, couplingsOf_finished, hnone]
  exact fun heq => hsome (Except.ok.inj heq)

end RepoAtlas.Report
