import RepoAtlas.Path
import RepoAtlas.Text.Utf8

/-!
# Files and directories

A file system is a tree of files, directories, links and pipes. A directory may refuse to be listed.
Looking up a path follows links, those inside it always and a last one if asked to; only so many links
are followed.
-/

namespace RepoAtlas

/-- What a path can lead to. -/
inductive FileNode where
  | file (bytes : List UInt8)
  | directory (listable : Bool) (children : List (String × FileNode))
  | link (target : String)
  | pipe
  deriving Inhabited

namespace FileNode

/-- A directory with nothing in it. -/
def emptyDirectory : FileNode :=
  .directory true []

/-- What a directory holds. -/
def children : FileNode → List (String × FileNode)
  | .directory _ cs => cs
  | _ => []

/-- Whether a directory can be listed. -/
def isListable : FileNode → Bool
  | .directory b _ => b
  | _ => false

/-- Whether a node is a directory. -/
def isDirectory : FileNode → Bool
  | .directory _ _ => true
  | _ => false

/-- Whether a node is a file. -/
def isFile : FileNode → Bool
  | .file _ => true
  | _ => false

/-- Whether a node is a link. -/
def isLink : FileNode → Bool
  | .link _ => true
  | _ => false

/-- The child of a directory with a name. -/
def child? (n : FileNode) (name : String) : Option FileNode :=
  n.children.lookup name

/-- The node at the end of a list of names, without following links. -/
def at? (n : FileNode) : List String → Option FileNode
  | [] => some n
  | name :: rest => (n.child? name).bind fun c => c.at? rest

/-- The children after one of them is replaced or added. -/
def putChild (name : String) (c : FileNode) : List (String × FileNode) → List (String × FileNode)
  | [] => [(name, c)]
  | (n, d) :: rest => if n = name then (n, c) :: rest else (n, d) :: putChild name c rest

/-- Put a node at the end of a list of names; directories on the way are made. A directory that is put
where there is one keeps what is in it. -/
def insert (tree : FileNode) (names : List String) (new : FileNode) : FileNode :=
  match names with
  | [] =>
    match new, tree with
    | .directory b [], .directory _ cs => .directory b cs
    | n, _ => n
  | name :: rest =>
    let below := (tree.child? name).getD emptyDirectory
    .directory (tree.isListable || !tree.isDirectory)
      (putChild name (below.insert rest new) tree.children)

/-- Remove what is at the end of a list of names. -/
def remove (tree : FileNode) (names : List String) : FileNode :=
  match names, tree with
  | [name], .directory b cs => .directory b (cs.filter fun (n, _) => n ≠ name)
  | name :: rest, .directory b cs =>
    match cs.lookup name with
    | some c => .directory b (putChild name (c.remove rest) cs)
    | none => .directory b cs
  | _, t => t

end FileNode

/-- Why a path leads nowhere. -/
inductive LookupFault where
  | notFound
  | notDirectory
  | tooManyLinks
  deriving DecidableEq, Repr

/-- No more links than this are followed for one path. -/
def linkLimit : Nat := 40

/-- Follow the names in `pending` from the place `done`. -/
def seek (root : FileNode) (followLast : Bool) (links : Nat) (done : List String) :
    List String → Except LookupFault (List String × FileNode)
  | [] =>
    match root.at? done with
    | some n => .ok (done, n)
    | none => .error .notFound
  | ".." :: rest => seek root followLast links done.dropLast rest
  | name :: rest =>
    match root.at? done with
    | some (.directory _ cs) =>
      match cs.lookup name with
      | none => .error .notFound
      | some (.link target) =>
        if rest.isEmpty && !followLast then .ok (done ++ [name], .link target)
        else
          match links with
          | 0 => .error .tooManyLinks
          | links + 1 =>
            seek root followLast links (if Path.isAbsolute target then [] else done)
              (Path.parts target ++ rest)
      | some _ => seek root followLast links (done ++ [name]) rest
    | some _ => .error .notDirectory
    | none => .error .notFound
termination_by pending => (links, pending.length)

/-- The node that an absolute path leads to, with its place. -/
def lookup (root : FileNode) (path : String) : Except LookupFault (List String × FileNode) :=
  seek root true linkLimit [] (Path.parts path)

/-- The node that an absolute path leads to, itself if it is a link. -/
def lookupLink (root : FileNode) (path : String) : Except LookupFault (List String × FileNode) :=
  seek root false linkLimit [] (Path.parts path)

/-- The node that a path leads to, if there is one. -/
def node? (root : FileNode) (path : String) : Option FileNode :=
  match lookup root path with
  | .ok (_, n) => some n
  | .error _ => none

/-- The names of the place that `pending` leads to from `done`, also if there is nothing; `none` if too
many links would be followed. -/
def realFrom (root : FileNode) (links : Nat) (done : List String) :
    List String → Option (List String)
  | [] => some done
  | ".." :: rest => realFrom root links done.dropLast rest
  | name :: rest =>
    match root.at? (done ++ [name]) with
    | some (.link target) =>
      match links with
      | 0 => none
      | links + 1 =>
        realFrom root links (if Path.isAbsolute target then [] else done)
          (Path.parts target ++ rest)
    | _ => realFrom root links (done ++ [name]) rest
termination_by pending => (links, pending.length)

/-- The place that an absolute path leads to. -/
def realPlace? (root : FileNode) (path : String) : Option (List String) :=
  realFrom root linkLimit [] (Path.parts path)

end RepoAtlas
