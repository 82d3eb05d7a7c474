import RepoAtlas.Proofs.Json.Marker
import RepoAtlas.Report.Map
import RepoAtlas.Report.Viewer

/-!
# The script of the graph page

A script is ended by `</script` in any letter case, and after `<!--` that end can be overlooked. The script of a
page has these markers as often as the texts of its map, in which nothing is escaped.
-/

namespace RepoAtlas.Report

open Json

/-! ## Parts of the page -/

/-- The pieces of text that end a script or make its end be overlooked. -/
def scriptMarkers : List String :=
  ["</script", "<!--"]

/-- A text that neither ends a script nor makes its end be overlooked. -/
def Harmless (text : String) : Prop :=
  ∀ piece ∈ scriptMarkers, places piece text = 0

instance (text : String) : Decidable (Harmless text) :=
  inferInstanceAs (Decidable (∀ piece ∈ scriptMarkers, places piece text = 0))

/-- The lines of a page before its script. -/
def openingLines (name : String) : List String :=
  Page.head ++ ["<title>" ++ markup name ++ " — Codebase Graph</title>"] ++ Page.links ++ Page.style ++
    Page.body.dropLast

/-- The lines of a page from the tag that ends its script. -/
def closingLines : List String :=
  ["</script>", "</body>", "</html>"]

/-- The lines that the scripts of all pages share. -/
def sharedLines : List String :=
  Page.drawing ++ Page.details ++ Page.communities.take (Page.communities.length - closingLines.length)

/-- The text of a page before its script. -/
def opening (name : String) : String :=
  Text.join "\n" (openingLines name)

/-- The script of the page for a map. -/
def script (map : Json) : String :=
  Text.join "\n" (("const data = " ++ map.compact ++ ";") :: sharedLines)

/-- A page has the data in its script. -/
theorem pageLines_eq (name data : String) :
    pageLines name data =
      openingLines name ++ ("<script>" :: (("const data = " ++ data ++ ";") :: sharedLines ++ closingLines)) := by
  have hbody : Page.body = Page.body.dropLast ++ ["<script>"] := rfl
  have hclosing : Page.communities.drop (Page.communities.length - closingLines.length) = closingLines := rfl
  have hcommunities := List.take_append_drop (Page.communities.length - closingLines.length) Page.communities
  rw [hclosing] at hcommunities
  rw [pageLines, ← hcommunities, hbody, openingLines, sharedLines]
  simp only [List.append_assoc, List.cons_append, List.nil_append]

/-- A map that names its project has a page, and its script stands between the tags that the page writes for it. -/
theorem page_eq_ok {map : Json} {name : String} (h : projectName map = .ok name) :
    page map = .ok (opening name ++ "\n<script>\n" ++ script map ++ "\n</script>\n</body>\n</html>") := by
  have hpage : page map = .ok (Text.join "\n" (pageLines name map.compact)) := by
    rw [page, h]
    rfl
  have htag : "\n<script>\n" = "\n" ++ "<script>" ++ "\n" := by decide +kernel
  have hclosing : "\n</script>\n</body>\n</html>" = "\n" ++ Text.join "\n" closingLines := by decide +kernel
  have hopeningLines : openingLines name ≠ [] := List.cons_ne_nil _ _
  have hclosingLines : closingLines ≠ [] := List.cons_ne_nil _ _
  rw [hpage, pageLines_eq, Text.join, String.intercalate_append_of_ne_nil hopeningLines (List.cons_ne_nil _ _),
    String.intercalate_cons_of_ne_nil (List.append_ne_nil_of_right_ne_nil _ hclosingLines),
    String.intercalate_append_of_ne_nil (List.cons_ne_nil _ _) hclosingLines, htag, hclosing]
  simp only [opening, script, Text.join, String.append_assoc]

/-! ## Markers in the script -/

/-- What ends or opens a script is a marker. -/
theorem isMarker_of_mem {piece : String} (h : piece ∈ scriptMarkers) : IsMarker piece := by
  have hall : ∀ p ∈ scriptMarkers,
      p.toList.head? = some '<' ∧ (p.toList.all fun c => escapeChar c = [c]) = true := by decide +kernel
  obtain ⟨hhead, hplain⟩ := hall piece h
  exact ⟨hhead, by simpa using hplain⟩

/-- A marker does not stand across two lines. -/
theorem places_join {piece : String} (hp : IsMarker piece) (lines : List String) :
    places piece (Text.join "\n" lines) = placesAll piece lines := by
  induction lines with
  | nil => rfl
  | cons line lines ih =>
    by_cases hne : lines = []
    · rw [hne, Text.join, String.intercalate_singleton]
      rfl
    · have hnewline : ∀ cs ds, placesIn piece.toList (cs ++ '\n' :: ds) =
          placesIn piece.toList cs + placesIn piece.toList ds :=
        hp.placesIn_append_escaped (by decide) (by decide)
      have htoList : (Text.join "\n" (line :: lines)).toList =
          line.toList ++ '\n' :: (Text.join "\n" lines).toList := by
        rw [Text.join, String.intercalate_cons_of_ne_nil hne]
        simp [Text.join]
      rw [places, htoList, hnewline, placesAll, ← ih]
      rfl

/-- Lines are harmless if the first has no marker and the rest is harmless. -/
theorem harmless_cons {line : String} {cs : List Char} {lines : List String} (hcs : line.toList = cs)
    (hline : ∀ piece ∈ scriptMarkers, placesIn piece.toList cs = 0) (hlines : ∀ l ∈ lines, Harmless l) :
    ∀ l ∈ line :: lines, Harmless l := by
  rw [List.forall_mem_cons]
  refine ⟨fun piece hpiece => ?_, hlines⟩
  rw [places, hcs]
  exact hline piece hpiece

set_option maxRecDepth 4000 in
/-- The fixed lines of the script are harmless. -/
theorem harmless_of_mem_sharedLines : ∀ line ∈ sharedLines, Harmless line := by
  have hlength : Page.communities.length - closingLines.length = 60 := rfl
  rw [sharedLines, hlength, Page.drawing, Page.details, Page.communities]
  simp only [List.cons_append, List.nil_append, List.take_succ_cons, List.take_zero]
  -- Line by line: as a list of characters a line is searched at once, as a text it would have to be decoded first.
  repeat refine harmless_cons String.toList_ofList (by decide +kernel) ?_
  exact fun _ h => absurd h List.not_mem_nil

/-- The script has a marker as often as the texts of the map have it: the lines around the map have none. -/
theorem places_script {piece : String} (h : piece ∈ scriptMarkers) (map : Json) :
    places piece (script map) = placesAll piece map.allTexts := by
  have hp := isMarker_of_mem h
  have hshared : placesAll piece sharedLines = 0 :=
    placesAll_eq_zero_iff.mpr fun line hline => harmless_of_mem_sharedLines line hline piece h
  have hdata : Shows piece ("const data = " ++ map.compact ++ ";") map.allTexts := by
    have hall := ((hp.shows_nil "const data = " (by decide)).append (hp.shows_compact map)).append
      (hp.shows_nil ";" (by decide))
    simpa using hall
  rw [script, places_join hp, placesAll, hshared, hdata.places_eq]
  rfl

/-- A script is harmless exactly if the texts of its data are. -/
theorem harmless_script_iff (map : Json) : Harmless (script map) ↔ ∀ t ∈ map.allTexts, Harmless t := by
  constructor
  · intro h t ht piece hpiece
    have hzero := h piece hpiece
    rw [places_script hpiece] at hzero
    exact placesAll_eq_zero_iff.mp hzero t ht
  · intro h piece hpiece
    rw [places_script hpiece]
    exact placesAll_eq_zero_iff.mpr fun t ht => h t ht piece hpiece

/-! ## The map of a repository -/

section

variable {e : Edition} {cs : Components} {circuits : List (List String)} {couplings violations : List Json}

/-- The project is named for its directory. -/
theorem projectName_mapJson :
    projectName (mapJson e cs circuits couplings violations) = .ok (Path.base (Path.normal e.repository)) :=
  rfl

/-- The name of the project is a text of the map. -/
theorem project_mem_texts :
    Path.base (Path.normal e.repository) ∈ (mapJson e cs circuits couplings violations).allTexts := by
  rw [mapJson, allTexts]
  refine mem_allTextsOfMembers (.tail _ (.head _)) ?_
  rw [allTexts]
  exact mem_allTextsOfMembers (.head _) (List.mem_singleton_self _)

/-- The texts of a component are texts of the map. -/
theorem mem_texts_of_mem_nodeJson {id t : String} {c : Component} (hc : cs.get? id = some c)
    (ht : t ∈ (nodeJson id c).allTexts) : t ∈ (mapJson e cs circuits couplings violations).allTexts := by
  have hnode : nodeJson id c ∈ cs.entries.map fun entry => nodeJson entry.1 entry.2 :=
    List.mem_map_of_mem (cs.get?_eq_some_iff.mp hc)
  have hnodes : t ∈ (Json.arr (cs.entries.map fun entry => nodeJson entry.1 entry.2)).allTexts := by
    rw [allTexts]
    exact mem_allTextsOfItems hnode ht
  rw [mapJson, allTexts]
  exact mem_allTextsOfMembers (.tail _ (.tail _ (.head _))) hnodes

/-- A component has its identifier, name and path as texts. -/
theorem mem_texts_nodeJson {id t : String} {c : Component} (ht : t ∈ [id, c.name, c.relativePath]) :
    t ∈ (nodeJson id c).allTexts := by
  rw [nodeJson, allTexts]
  have hmember : ∃ name, (name, Json.str t) ∈ [("id", Json.str id), ("name", .str c.name), ("type", .str c.kind),
      ("file_path", .str c.relativePath)] := by
    simp only [List.mem_cons, List.not_mem_nil, or_false] at ht
    obtain rfl | rfl | rfl := ht
    · exact ⟨_, .head _⟩
    · exact ⟨_, .tail _ (.head _)⟩
    · exact ⟨_, .tail _ (.tail _ (.tail _ (.head _)))⟩
  obtain ⟨name, hname⟩ := hmember
  exact mem_allTextsOfMembers (List.mem_append_left _ (List.mem_append_left _ hname)) (List.mem_singleton_self t)

end

/-! ## The end of the script -/

/-- The markers stand in the script of a page as often as in the texts of the map, so nothing but the page's
own tag ends it if and only if none of them has one. The names, identifiers and paths of components are among
them. -/
theorem script_ended_by_page_iff (map : Json) (name : String) (h : projectName map = .ok name) :
    page map = .ok (opening name ++ "\n<script>\n" ++ script map ++ "\n</script>\n</body>\n</html>") ∧
    (∀ piece ∈ scriptMarkers, places piece (script map) = places piece map.compact ∧
      places piece map.compact = placesAll piece map.allTexts) ∧
    (Harmless (script map) ↔ ∀ t ∈ map.allTexts, Harmless t) ∧
    ∀ e cs circuits couplings violations, map = mapJson e cs circuits couplings violations → Harmless (script map) →
      Harmless name ∧ ∀ id c, cs.get? id = some c → ∀ t ∈ [id, c.name, c.relativePath], Harmless t := by
  refine ⟨page_eq_ok h, fun piece hpiece => ?_, harmless_script_iff map, ?_⟩
  · have hcompact := (isMarker_of_mem hpiece).places_compact map
    exact ⟨(places_script hpiece map).trans hcompact.symm, hcompact⟩
  · rintro e cs circuits couplings violations rfl hharmless
    rw [harmless_script_iff] at hharmless
    obtain rfl : _ = name := Except.ok.inj (projectName_mapJson.symm.trans h)
    refine ⟨hharmless _ project_mem_texts, fun id c hc t ht => hharmless t ?_⟩
    exact mem_texts_of_mem_nodeJson hc (mem_texts_nodeJson ht)

/-- Less-than signs, comments that are not complete and tags that begin a script. -/
def angledMap : Json :=
  .obj [("metadata", .obj [("project_name", .str "a<b")]),
    ("nodes", .arr [.obj [("id", .str "<script>.f"), ("file_path", .str "<script>/<!-.py")]]), ("edges", .arr [])]

/-- The script of a project `a<b` is harmless. -/
theorem angled_script_ended_by_page :
    projectName angledMap = .ok "a<b" ∧ (∀ t ∈ angledMap.allTexts, Harmless t) ∧ Harmless (script angledMap) := by
  have htexts : ∀ t ∈ angledMap.allTexts, Harmless t := by decide +kernel
  exact ⟨rfl, htexts, (script_ended_by_page_iff angledMap "a<b" rfl).2.2.1.mpr htexts⟩

/-- A component in a file `script>.py` of a directory `x<`. -/
def taggedMap : Json :=
  .obj [("metadata", .obj [("project_name", .str "p")]),
    ("nodes", .arr [.obj [("id", .str "x<.script>.f"), ("file_path", .str "x</script>.py")]]), ("edges", .arr [])]

/-- The path of a component ends the script. -/
theorem path_ends_script :
    projectName taggedMap = .ok "p" ∧ places "</script" taggedMap.compact = 1 ∧
      places "</script" (script taggedMap) = 1 := by
  have hpiece : "</script" ∈ scriptMarkers := .head _
  have htexts : placesAll "</script" taggedMap.allTexts = 1 := by decide +kernel
  refine ⟨rfl, ?_, (places_script hpiece taggedMap).trans htexts⟩
  exact ((isMarker_of_mem hpiece).places_compact taggedMap).trans htexts

end RepoAtlas.Report
