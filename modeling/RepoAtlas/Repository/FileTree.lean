import RepoAtlas.Files.Node
import RepoAtlas.Json.Basic
import RepoAtlas.Repository.Language
import RepoAtlas.Repository.Selection

/-!
# The tree of selected files

The file tree of a repository holds the selected files and the directories that lead to them, in the
order of their names. Links are left out, and a directory that cannot be listed has nothing in it.
-/

namespace RepoAtlas.Repository

/-- Selected files and directories, with their paths from the root of the repository. -/
inductive FileTree where
  | file (name path ending : String) (size : Nat)
  | directory (name path : String) (children : List FileTree)
  deriving Inhabited

/-- The name of the node at the top. -/
def FileTree.name : FileTree → String
  | .file n _ _ _ => n
  | .directory n _ _ => n

/-- The path of the root itself. -/
def rootPath : String := "."

/-- The path of a child. -/
def childPath (path name : String) : String :=
  if path = rootPath then name else path ++ "/" ++ name

/-- Trees in the order of their names. -/
def byName (ts : List FileTree) : List FileTree :=
  ts.mergeSort fun a b => Text.atMost a.name b.name

mutual
/-- The tree of a node; `none` if it is not selected. -/
def treeAt (s : Selection) (path name : String) : FileNode → Option FileTree
  | .link _ => none
  | .pipe => none
  | .file bytes =>
    if s.isExcluded path name || !s.isIncluded path name then none
    else some (.file name path (Path.suffixOf name) bytes.length)
  | .directory listable children =>
    if s.isExcluded path name then none
    else
      let below := if listable then byName (treesIn s path children) else []
      if below.isEmpty && path != rootPath then none else some (.directory name path below)

/-- The trees of the children of a directory. -/
def treesIn (s : Selection) (path : String) : List (String × FileNode) → List FileTree
  | [] => []
  | (name, c) :: rest => (treeAt s (childPath path name) name c).toList ++ treesIn s path rest
end

/-- The file tree of a repository with a given name. -/
def fileTree (s : Selection) (name : String) (root : FileNode) : Option FileTree :=
  treeAt s rootPath name root

namespace FileTree

mutual
/-- The number of files in a tree. -/
def count : FileTree → Nat
  | .file _ _ _ _ => 1
  | .directory _ _ cs => countAll cs

/-- The number of files in trees. -/
def countAll : List FileTree → Nat
  | [] => 0
  | t :: ts => t.count + countAll ts
end

mutual
/-- The number of bytes in the files of a tree. -/
def bytes : FileTree → Nat
  | .file _ _ _ n => n
  | .directory _ _ cs => bytesAll cs

/-- The number of bytes in the files of trees. -/
def bytesAll : List FileTree → Nat
  | [] => 0
  | t :: ts => t.bytes + bytesAll ts
end

mutual
/-- A tree as JSON. -/
def toJson : FileTree → Json
  | .file name path ending size =>
    .obj [("type", .str "file"), ("name", .str name), ("path", .str path),
      ("extension", .str ending), ("_size_bytes", .int size)]
  | .directory name path cs =>
    .obj [("type", .str "directory"), ("name", .str name), ("path", .str path),
      ("children", .arr (allToJson cs))]

/-- Trees as JSON. -/
def allToJson : List FileTree → List Json
  | [] => []
  | t :: ts => t.toJson :: allToJson ts
end

/-- The number of files and their size in units of 1024 bytes. -/
def summary (t : FileTree) : List (String × Json) :=
  [("total_files", .int t.count),
    ("total_size_kb", if t.count = 0 then .int 0 else .float (t.bytes.toFloat / 1024.0))]

end FileTree

/-- A file of code. -/
structure CodeFile where
  path : String
  name : String
  ending : String
  language : String
  deriving DecidableEq, Repr

/-- A file of code, if its ending is that of a known language. -/
def codeFile? (path name ending : String) : Option CodeFile :=
  (languageOf? (Text.lower ending)).map fun l =>
    { path := path, name := name, ending := Text.lower ending, language := l }

mutual
/-- The files of code in a tree. -/
def codeFiles : FileTree → List CodeFile
  | .file name path ending _ => (codeFile? path name ending).toList
  | .directory _ _ cs => codeFilesIn cs

/-- The files of code in trees. -/
def codeFilesIn : List FileTree → List CodeFile
  | [] => []
  | t :: ts => codeFiles t ++ codeFilesIn ts
end

/-- The files in languages that can be analysed. -/
def analysableFiles (files : List CodeFile) : List CodeFile :=
  files.filter fun f => analysable.contains f.language

/-- What a described file tree lacks. -/
inductive TreeGap where
  | missingMember (name : String)
  deriving DecidableEq, Repr

/-- A member that is needed. -/
def neededText (members : List (String × Json)) (name : String) : Except TreeGap String :=
  match members.lookup name with
  | some j => .ok (j.str?.getD "")
  | none => .error (.missingMember name)

/-- A described file. Only a file of code needs its path and name. -/
def describedFile (members : List (String × Json)) : Except TreeGap FileTree := do
  let ending := ((members.lookup "extension").bind Json.str?).getD ""
  if (languageOf? (Text.lower ending)).isSome then
    let path ← neededText members "path"
    let name ← neededText members "name"
    .ok (.file name path ending 0)
  else .ok (.file "" "" ending 0)

mutual
/-- The file tree that JSON describes. Anything but a file is a directory, possibly an empty one. -/
def describedTree : Json → Except TreeGap FileTree
  | .obj members =>
    match members.lookup "type" with
    | none => .error (.missingMember "type")
    | some (.str "file") => describedFile members
    | some (.str "directory") => (describedChildren members).map (.directory "" "")
    | some _ => .ok (.directory "" "" [])
  | _ => .error (.missingMember "type")

/-- The children that the members of a described directory give. -/
def describedChildren : List (String × Json) → Except TreeGap (List FileTree)
  | [] => .ok []
  | (name, .arr xs) :: rest =>
    if name = "children" then describedTrees xs else describedChildren rest
  | _ :: rest => describedChildren rest

/-- The file trees that JSON describes. -/
def describedTrees : List Json → Except TreeGap (List FileTree)
  | [] => .ok []
  | j :: js => do
    let t ← describedTree j
    let ts ← describedTrees js
    .ok (t :: ts)
end

end RepoAtlas.Repository
