import RepoAtlas.CallGraph.Basic

/-!
# Resolving relationships

A relationship names the component it refers to in one of several ways: by identifier, by type and
method, or by a bare name, which counts only in the directory of the caller. Interfaces are matched
with the structs that have all of their methods.
-/

namespace RepoAtlas.CallGraph

/-- A type and a method as one name. -/
def methodKey? (c : Component) : Option String :=
  match c.className with
  | some t => if t = "" || c.name = "" then none else some (t ++ "." ++ c.name)
  | none => none

/-- The names by which a component is known everywhere. -/
def wideNames (id : String) (c : Component) : List String :=
  [id] ++ (c.componentId.filter (· != "")).toList ++ (methodKey? c).toList

/-- The names by which a component is known in its directory. -/
def localNames (c : Component) : List String :=
  [c.name] ++ (methodKey? c).toList

/-- The identifiers for names that are known everywhere, the last first. -/
def wideTable (cs : Components) : List (String × String) :=
  (cs.entries.flatMap fun (id, c) => (wideNames id c).map (·, id)).reverse

/-- The identifiers for names that are known in a directory, the last first. -/
def localTable (cs : Components) : List ((String × String) × String) :=
  (cs.entries.flatMap fun (id, c) =>
    (localNames c).map fun n => ((directoryOf c, n), id)).reverse

/-- The last two parts of a dotted name; a name with fewer parts has no short form. -/
def shortForm? (name : String) : Option String :=
  match Text.beforeLast? '.' name with
  | none => none
  | some front => some (Text.afterLast '.' front ++ "." ++ Text.afterLast '.' name)

/-- The identifier that a relationship refers to: by the whole name, by its short form, and then in the
directory of the caller by the whole name and by its last part. -/
def target? (cs : Components) (wide : List (String × String))
    (narrow : List ((String × String) × String)) (r : Relationship) : Option String :=
  let inDirectory (name : String) : Option String :=
    (cs.get? r.caller).bind fun c => narrow.lookup (directoryOf c, name)
  (wide.lookup r.callee).orElse fun _ =>
    ((shortForm? r.callee).bind fun s => wide.lookup s).orElse fun _ =>
      (inDirectory r.callee).orElse fun _ =>
        if r.callee.toList.contains '.' then inDirectory (Text.afterLast '.' r.callee) else none

/-- Resolve the relationships that name a component. -/
def resolve (g : CallGraph) : CallGraph :=
  let wide := wideTable g.functions
  let narrow := localTable g.functions
  { g with relationships := g.relationships.map fun r =>
      match target? g.functions wide narrow r with
      | some id => { r with callee := id, resolved := true }
      | none => r }

/-- The relationships without those whose two ends are those of an earlier one. -/
def distinct : List (String × String) → List Relationship → List Relationship
  | _, [] => []
  | seen, r :: rs =>
    if seen.contains (r.caller, r.callee) then distinct seen rs
    else r :: distinct ((r.caller, r.callee) :: seen) rs

/-- Keep of several relationships with the same ends the first. -/
def deduplicate (g : CallGraph) : CallGraph :=
  { g with relationships := distinct [] g.relationships }

/-- The last component of a kind and name, with its key. -/
def lastOf? (cs : Components) (kind name : String) : Option (String × Component) :=
  cs.entries.reverse.find? fun (_, c) => c.kind = kind && c.name = name

/-- Whether a struct has all of the methods of an interface that has some. -/
def satisfies (methods wanted : List String) : Bool :=
  !wanted.isEmpty && wanted.all methods.contains

/-- The structs with the interfaces that they satisfy. -/
def satisfied (g : CallGraph) : List (String × String) :=
  g.structs.entries.flatMap fun (s, methods) =>
    (g.interfaces.entries.filter fun (_, wanted) => satisfies methods wanted).map fun (i, _) =>
      (s, i)

/-- A component that implements an interface. -/
def implementing (name : String) (c : Component) : Component :=
  if c.implementsInterfaces.contains name then c
  else { c with implementsInterfaces := c.implementsInterfaces ++ [name] }

/-- Note that a struct satisfies an interface. -/
def noteMatch (g : CallGraph) (pair : String × String) : CallGraph :=
  match lastOf? g.functions "struct" pair.1 with
  | none => g
  | some (key, s) =>
    let g := { g with functions := g.functions.modify key (implementing pair.2) }
    match lastOf? g.functions "interface" pair.2 with
    | none => g
    | some (_, i) =>
      { g with relationships := g.relationships ++
          [{ caller := s.id, callee := i.id, kind := "implements", resolved := true }] }

/-- Match structs with the interfaces that they satisfy. -/
def matchInterfaces (g : CallGraph) : CallGraph :=
  g.satisfied.foldl noteMatch g

end RepoAtlas.CallGraph
