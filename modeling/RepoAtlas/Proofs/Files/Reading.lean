import RepoAtlas.Files.Reading

/-!
# Files that are reached without links

Where the names of a path lead straight down a tree and past no link, the lookup ends where they lead, and a
file there is read as its text. A name that is missing in a directory is not read.
-/

namespace RepoAtlas

namespace FileNode

/-- The node at the end of names that lead straight down: none of them is a double dot, every node on
the way is a directory, and the last node is no link. -/
def straight? (n : FileNode) : List String → Option FileNode
  | [] => if n.isLink then none else some n
  | name :: rest =>
    if name = ".." then none
    else if n.isDirectory then (n.child? name).bind fun c => c.straight? rest
    else none

/-- The text of a file. -/
def text? : FileNode → Option String
  | .file bytes => some (Text.fileText bytes)
  | _ => none

/-- A way in two parts is gone one after the other. -/
theorem at?_append (n : FileNode) (names more : List String) :
    n.at? (names ++ more) = (n.at? names).bind fun c => c.at? more := by
  induction names generalizing n with
  | nil => rfl
  | cons name names ih => simp [at?, ih, Option.bind_assoc]

/-- The last name of a way is that of a child. -/
theorem at?_snoc {n m : FileNode} {names : List String} (h : n.at? names = some m) (name : String) :
    n.at? (names ++ [name]) = m.child? name := by
  simp [at?_append, h, at?]

/-- The first name of a straight way leads to a child of a directory. -/
theorem straight?_cons {n m : FileNode} {name : String} {rest : List String}
    (h : n.straight? (name :: rest) = some m) :
    name ≠ ".." ∧ ∃ b cs c, n = .directory b cs ∧ cs.lookup name = some c ∧
      c.straight? rest = some m := by
  rw [straight?] at h
  split at h
  · cases h
  · rename_i hname
    cases n with
    | directory b cs =>
      obtain ⟨c, hc, hrest⟩ := Option.bind_eq_some_iff.mp h
      exact ⟨hname, b, cs, c, rfl, hc, hrest⟩
    | _ => cases h

/-- A straight way does not start at a link. -/
theorem not_link_of_straight? {n m : FileNode} {names : List String} (h : n.straight? names = some m)
    (target : String) : n ≠ .link target := by
  rintro rfl
  cases names with
  | nil => cases h
  | cons name rest =>
    obtain ⟨-, _, _, _, hn, -⟩ := straight?_cons h
    cases hn

/-- Names lead straight down as far as their beginnings do. -/
theorem exists_straight?_of_append {n m : FileNode} {names more : List String}
    (h : n.straight? (names ++ more) = some m) : ∃ k, n.straight? names = some k := by
  induction names generalizing n with
  | nil =>
    have hlink : n.isLink = false := by
      cases n with
      | link target => exact absurd rfl (not_link_of_straight? h target)
      | _ => rfl
    exact ⟨n, by simp [straight?, hlink]⟩
  | cons name names ih =>
    obtain ⟨hname, b, cs, c, rfl, hc, hrest⟩ := straight?_cons h
    obtain ⟨k, hk⟩ := ih hrest
    exact ⟨k, by simp [straight?, hname, isDirectory, child?, children, hc, hk]⟩

end FileNode

variable {root n m : FileNode} {done names : List String}

/-- Looking up goes straight down where the way does. -/
theorem seek_append_of_straight? (followLast : Bool) (links : Nat) (hdone : root.at? done = some n)
    (h : n.straight? names = some m) (more : List String) :
    seek root followLast links done (names ++ more) = seek root followLast links (done ++ names) more := by
  induction names generalizing done n with
  | nil => rw [List.nil_append, List.append_nil]
  | cons name rest ih =>
    obtain ⟨hname, b, cs, c, rfl, hc, hrest⟩ := FileNode.straight?_cons h
    have hnext : root.at? (done ++ [name]) = some c := (FileNode.at?_snoc hdone name).trans hc
    have hstep : seek root followLast links done (name :: (rest ++ more)) =
        seek root followLast links (done ++ [name]) (rest ++ more) := by
      have hlink := FileNode.not_link_of_straight? hrest
      rw [seek]
      · cases c with
        | link target => exact absurd rfl (hlink target)
        | _ => simp [hdone, hc]
      · exact hname
    rw [List.cons_append, hstep, ih hnext hrest, List.append_assoc, List.singleton_append]

/-- Names that lead straight down lead to their end. -/
theorem FileNode.at?_of_straight? (h : n.straight? names = some m) : n.at? names = some m := by
  induction names generalizing n with
  | nil =>
    rw [straight?] at h
    split at h
    · cases h
    · exact h
  | cons name rest ih =>
    obtain ⟨-, b, cs, c, rfl, hc, hrest⟩ := straight?_cons h
    simp [at?, child?, children, hc, ih hrest]

/-- A lookup follows names that lead straight down to their end, whatever is asked of a last link. -/
theorem seek_of_straight? (followLast : Bool) (links : Nat) (h : root.straight? names = some m) :
    seek root followLast links [] names = .ok (names, m) := by
  have happend : seek root followLast links [] (names ++ []) =
      seek root followLast links ([] ++ names) [] := seek_append_of_straight? followLast links rfl h []
  rw [List.append_nil, List.nil_append] at happend
  rw [happend, seek, FileNode.at?_of_straight? h]

/-- A lookup of a name that is missing in a directory, to which names lead straight down, fails. -/
theorem seek_of_missing (followLast : Bool) (links : Nat) {rest : List String} {name : String}
    {b : Bool} {cs : List (String × FileNode)} (h : root.straight? names = some (.directory b cs))
    (hname : name ≠ "..") (hmissing : cs.lookup name = none) :
    seek root followLast links [] (names ++ name :: rest) = .error .notFound := by
  rw [seek_append_of_straight? followLast links rfl h, List.nil_append, seek]
  · simp [FileNode.at?_of_straight? h, hmissing]
  · exact hname

/-- What is found without following a last link, and is none, is found with following it. -/
theorem seek_of_not_link {links : Nat} {pending place : List String}
    (h : seek root false links done pending = .ok (place, n)) (hn : n.isLink = false) :
    seek root true links done pending = .ok (place, n) := by
  fun_induction seek root false links done pending with
  | case1 links done m hat =>
    rw [seek, hat]
    exact h
  | case3 links done rest ih =>
    rw [seek]
    exact ih h
  | case5 links done name rest hname b cs hat target hlink hlast =>
    obtain ⟨-, rfl⟩ := Prod.mk.inj (Except.ok.inj h)
    cases hn
  | case7 done name rest hname b cs hat target hlink hlast links ih =>
    rw [seek]
    · simp only [hat, hlink, Bool.not_true, Bool.and_false, Bool.false_eq_true, if_false]
      exact ih h
    · exact hname
  | case8 links done name rest hname b cs hat c hlink hchild ih =>
    rw [seek]
    · simp only [hat, hchild]
      exact ih h
    · exact hname
  | _ => cases h

/-- A straight way leads to its own place. -/
theorem realFrom_of_straight? (links : Nat) (hdone : root.at? done = some n) (h : n.straight? names = some m) :
    realFrom root links done names = some (done ++ names) := by
  induction names generalizing done n with
  | nil => simp [realFrom]
  | cons name rest ih =>
    obtain ⟨hname, b, cs, c, rfl, hc, hrest⟩ := FileNode.straight?_cons h
    have hnext : root.at? (done ++ [name]) = some c := (FileNode.at?_snoc hdone name).trans hc
    have hstep : realFrom root links done (name :: rest) =
        realFrom root links (done ++ [name]) rest := by
      have hlink := FileNode.not_link_of_straight? hrest
      rw [realFrom]
      · cases c with
        | link target => exact absurd rfl (hlink target)
        | _ => simp [hnext]
      · exact hname
    rw [hstep, ih hnext hrest, List.append_assoc, List.singleton_append]

namespace Files

/-- A file inside the directory `base` that its path leads straight down to is read as its text. -/
theorem readText_of_straight? {base target text : String} (hinside : (Path.parts base).isPrefixOf (Path.parts target))
    (htext : (root.straight? (Path.parts target)).bind FileNode.text? = some text) :
    readText root base target = .ok text := by
  obtain ⟨node, hnode, hnodeText⟩ := Option.bind_eq_some_iff.mp htext
  obtain ⟨rest, hrest⟩ := List.isPrefixOf_iff_prefix.mp hinside
  obtain ⟨k, hbase⟩ := FileNode.exists_straight?_of_append (hrest ▸ hnode)
  cases node with
  | file bytes =>
    have hplace : realPlace? root target = some (Path.parts target) :=
      realFrom_of_straight? linkLimit rfl hnode
    have hbasePlace : realPlace? root base = some (Path.parts base) :=
      realFrom_of_straight? linkLimit rfl hbase
    have hlookup : ∀ followLast, seek root followLast linkLimit [] (Path.parts target) =
        .ok (Path.parts target, .file bytes) :=
      fun followLast => seek_of_straight? followLast linkLimit hnode
    have hcheck : checkPath root base target = .ok () := by
      simp [checkPath, lookupLink, hlookup, FileNode.isLink, hplace, hbasePlace, hinside]
    have htextEq : Text.fileText bytes = text := Option.some.inj hnodeText
    simp [readText, hcheck, lookup, hlookup, htextEq, bind, Except.bind]
  | _ => cases hnodeText

/-- A file that is missing in its directory is not read. -/
theorem readText_of_missing {base target name : String}
    (htarget : Path.parts target = names ++ [name]) (hname : name ≠ "..")
    (hmissing : (root.straight? names).any (fun d => d.isDirectory && (d.child? name).isNone)) :
    ∃ fault, readText root base target = .error fault := by
  have hlookup : lookup root target = .error .notFound := by
    rw [lookup, htarget]
    cases hstraight : root.straight? names with
    | none => simp [hstraight] at hmissing
    | some d =>
      cases d with
      | directory b cs =>
        have hnone : cs.lookup name = none := by
          simpa [hstraight, FileNode.isDirectory, FileNode.child?, FileNode.children] using hmissing
        exact seek_of_missing true linkLimit hstraight hname hnone
      | _ => simp [hstraight, FileNode.isDirectory] at hmissing
  cases hcheck : checkPath root base target with
  | error fault => exact ⟨fault, by simp [readText, hcheck, bind, Except.bind]⟩
  | ok _ => exact ⟨.notFound, by simp [readText, hcheck, hlookup, bind, Except.bind]⟩

end Files

end RepoAtlas
