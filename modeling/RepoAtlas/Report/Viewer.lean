import RepoAtlas.Json.Writer
import RepoAtlas.Report.Page
import RepoAtlas.Text.Search

/-!
# The graph page

The page for a map of a repository: its title names the project, and its script holds the map.
-/

namespace RepoAtlas.Report

/-- Why a page cannot be made of a map. -/
inductive ViewerFault where
  /-- The map, its metadata or the name of the project has the wrong form. -/
  | malformed
  deriving DecidableEq, Repr

/-- How a character is written in the text of a page. -/
def markupChar : Char → List Char
  | '&' => "&amp;".toList
  | '<' => "&lt;".toList
  | '>' => "&gt;".toList
  | '"' => "&quot;".toList
  | '\x27' => "&#x27;".toList
  | c => [c]

/-- A text as it is written in a page. -/
def markup (s : String) : String :=
  String.ofList (s.toList.flatMap markupChar)

/-- The name of the project that a map is about. -/
def projectName (map : Json) : Except ViewerFault String :=
  match map with
  | .obj members =>
    match members.lookup "metadata" with
    | none => .ok "Codebase"
    | some (.obj data) =>
      match data.lookup "project_name" with
      | none => .ok "Codebase"
      | some (.str s) => .ok s
      | some _ => .error .malformed
    | some _ => .error .malformed
  | _ => .error .malformed

/-- The lines of the page for a map. -/
def pageLines (name data : String) : List String :=
  Page.head ++ ["<title>" ++ markup name ++ " — Codebase Graph</title>"] ++ Page.links ++
    Page.style ++ Page.body ++ ["const data = " ++ data ++ ";"] ++ Page.drawing ++ Page.details ++
    Page.communities

/-- The page for a map. -/
def page (map : Json) : Except ViewerFault String := do
  let name ← projectName map
  .ok (Text.join "\n" (pageLines name map.compact))

end RepoAtlas.Report
