import RepoAtlas.Proofs.Extract.Front
import RepoAtlas.Proofs.Path
import RepoAtlas.Proofs.Text.Exchange

/-!
# Identifiers in a Vue file and in its script

The component of a Vue file drops the ending of its path. In the path of its script every occurrence of that
ending is exchanged, so both begin alike exactly if it occurs at the end only.
-/

namespace RepoAtlas.Extract.Vue

open Syntax

variable {parsers : Parsers} {path stem ending x y : String} {endings : List String} {root : Option String}
  {own c : Component} {script : List Component}

/-- The ending that a script gets in place of that of its file, and the other endings of its language. -/
inductive ScriptEnding : String → List String → Prop
  | typescript : ScriptEnding ".ts" [".tsx", ".js", ".jsx", ".mjs", ".cjs"]
  | javascript : ScriptEnding ".js" [".ts", ".jsx", ".tsx", ".mjs", ".cjs"]

/-- The path under which a script with an ending is analysed. -/
def renamed (ending path : String) : String :=
  Text.replace path ".vue" ending

/-- A path without `.vue` stays. -/
theorem renamed_of_not_has (h : Text.has x ".vue" = false) : renamed ending x = x := by
  rw [renamed, Text.replace, Text.exchange_of_not_occurs h, String.ofList_toList]

/-- The first `.vue` in a path is replaced. -/
theorem exists_of_has (ending : String) (h : Text.has x ".vue" = true) :
    ∃ a b, x = a ++ ".vue" ++ b ∧ renamed ending x = a ++ ending ++ renamed ending b := by
  obtain ⟨a, b, hx, hexchange⟩ := Text.exists_of_occurs ending.toList (by decide) h
  refine ⟨String.ofList a, String.ofList b, ?_, ?_⟩
  · rw [← String.toList_inj, hx]
    simp
  · rw [renamed, Text.replace, hexchange, renamed, Text.replace, String.toList_ofList, ← String.toList_inj]
    simp

/-- So is one at the end. -/
theorem renamed_append_vue (ending stem : String) :
    renamed ending (stem ++ ".vue") = renamed ending stem ++ ending := by
  have hvue : ".vue".toList = '.' :: ['v', 'u', 'e'] := rfl
  rw [renamed, renamed, Text.replace, Text.replace, String.toList_append, hvue,
    Text.exchange_append_self (by decide), String.ofList_append, String.ofList_toList]

namespace ScriptEnding

variable (h : ScriptEnding ending endings)
include h

/-- The endings have three characters. -/
theorem length_eq : ending.length = 3 := by
  cases h <;> rfl

/-- A path stays exactly if it has no `.vue`. -/
theorem renamed_eq_self_iff : renamed ending x = x ↔ Text.has x ".vue" = false := by
  have hshorter : ending.toList.length < ".vue".toList.length := by
    rw [String.length_toList, h.length_eq]
    decide
  rw [renamed, Text.replace, Text.has, ← Text.exchange_eq_self_iff hshorter, ← String.toList_inj, String.toList_ofList]

/-- Only a short text becomes a short text. -/
theorem renamed_eq_iff (hy : y.length ≤ 2) : renamed ending x = y ↔ x = y := by
  cases hhas : Text.has x ".vue" with
  | false => rw [renamed_of_not_has hhas]
  | true =>
    obtain ⟨a, b, rfl, hrenamed⟩ := exists_of_has ending hhas
    have hlength := h.length_eq
    have hvue : ".vue".length = 4 := rfl
    rw [hrenamed]
    constructor
    · rintro rfl
      simp only [String.length_append] at hy
      omega
    · rintro rfl
      simp only [String.length_append] at hy
      omega

/-- Renaming goes part by part. -/
theorem partByPart : Path.PartByPart (renamed ending) where
  split p := by
    have hcut : Text.cut '/' (Text.exchange ".vue".toList ending.toList 0 p.toList) =
        (Text.cut '/' p.toList).map (Text.exchange ".vue".toList ending.toList 0) := by
      refine Text.cut_exchange (by decide) (by decide) ?_ p.toList
      cases h <;> decide
    rw [renamed, Text.replace, Text.split, Text.split, String.toList_ofList, hcut, List.map_map, List.map_map]
    refine List.map_congr_left fun part _ => ?_
    simp [renamed, Text.replace]
  empty p := h.renamed_eq_iff (by decide)
  dot p := h.renamed_eq_iff (by decide)
  dots p := h.renamed_eq_iff (by decide)

end ScriptEnding

/-- The identifiers of a script go on from that of its file exactly if nothing is exchanged inside the path. -/
theorem begins_renamed_iff (h : ScriptEnding ending endings) (stem rest : String) :
    Text.begins (Path.dotted (renamed ending stem) ++ "." ++ rest) (Path.dotted stem ++ ".") = true ↔
      Text.has stem ".vue" = false := by
  cases hhas : Text.has stem ".vue" with
  | false =>
    rw [renamed_of_not_has hhas, Text.begins, List.isPrefixOf_iff_prefix]
    simp
  | true =>
    obtain ⟨a, b, rfl, hrenamed⟩ := exists_of_has ending hhas
    -- the two differ in the letter behind the dot of the ending
    have hvue : Path.dotted ".vue" = ".vue" := by decide
    rw [hrenamed]
    simp only [Path.dotted_append, hvue, Text.begins, List.isPrefixOf_iff_prefix]
    simp only [String.toList_append, List.append_assoc, List.prefix_append_right_inj]
    cases h <;> simp [Path.dotted, Text.replaceChar]

/-- The dotted name that the identifiers of a script begin with. -/
def scriptName (ending : String) (endings : List String) (path : String) (root : Option String) : String :=
  Path.dotted (Path.dropEnding (relativeTo (Path.tidy (renamed ending path)) root) (ending :: endings))

/-- The components of a script are anchored in its name. -/
theorem anchored_of_scriptFindings {b : Script} (hc : c ∈ (scriptFindings parsers path root b).components) :
    ∃ ending endings, ScriptEnding ending endings ∧ Anchored (scriptName ending endings path root) c := by
  unfold scriptFindings at hc
  split at hc
  · obtain ⟨front, hfront, hanchored⟩ := TypeScript.anchored_of_analyze hc
    obtain rfl := List.mem_singleton.mp hfront
    exact ⟨_, _, .typescript, hanchored⟩
  · obtain ⟨front, hfront, hanchored⟩ := JavaScript.anchored_of_analyze hc
    obtain rfl := List.mem_singleton.mp hfront
    exact ⟨_, _, .javascript, hanchored⟩

/-- A component keeps its identifier. -/
theorem id_enriched (relationships : List Relationship) (c : Component) : (enriched relationships c).id = c.id := by
  obtain ⟨kind, nodeType, heq⟩ := enriched_eq relationships c
  rw [heq]

/-- Enriching leaves the file itself. -/
theorem enriched_fileComponent (relationships : List Relationship) (path : String) (root : Option String)
    (text : String) : enriched relationships (fileComponent path root text) = fileComponent path root text :=
  if_pos rfl

/-- The first component of a file is the file, and the others have the identifiers of its script. -/
theorem ids_of_findings {s : Source} {text : String} {n : Cursor} {f : Findings}
    (h : findings parsers s text root n = .ok f) (hf : f.components = own :: script) :
    own = fileComponent s.path root text ∧
      ∀ k ∈ script, ∃ b, ∃ d ∈ (scriptFindings parsers s.path root b).components, k.id = d.id := by
  rcases exists_of_findings h with ⟨rfl, -⟩ | ⟨block, inTemplate, -, -, hall⟩
  · cases hf
  · rw [hall] at hf
    obtain ⟨hown, hscript⟩ := List.cons.inj hf
    refine ⟨hown.symm.trans (enriched_fileComponent f.relationships s.path root text), fun k hk => ?_⟩
    obtain ⟨d, hd, rfl⟩ := List.mem_map.mp (hscript ▸ hk)
    obtain ⟨b, hd⟩ := exists_of_mem_inScript hd
    obtain ⟨e, he, rfl⟩ := List.mem_map.mp hd
    exact ⟨b, e, he, id_enriched f.relationships _⟩

/-- The components of a file are the file itself and what is anchored in the name of its script. -/
theorem exists_of_analyze {text : Option String}
    (h : (analyze parsers ⟨some path, text, root⟩).components = own :: script) :
    own.kind = "vue_component" ∧ own.id = componentId (Path.tidy path) root ∧
      ∀ k ∈ script, ∃ ending endings rest, ScriptEnding ending endings ∧
        k.id = scriptName ending endings (Path.tidy path) root ++ "." ++ rest := by
  simp only [analyze] at h
  split at h
  · rename_i f hf
    obtain ⟨⟨s, n⟩, hopened, hf⟩ := bind_eq_ok.mp hf
    simp only [opened, bind_eq_ok] at hopened
    obtain ⟨p, hp, -, -, t, -, tree, -, hopened⟩ := hopened
    obtain ⟨rfl, -⟩ := Prod.mk.inj (Except.ok.inj hopened)
    cases hp
    obtain ⟨rfl, hscript⟩ := ids_of_findings hf h
    refine ⟨rfl, rfl, fun k hk => ?_⟩
    obtain ⟨b, d, hd, hid⟩ := hscript k hk
    obtain ⟨ending, endings, hending, hanchored⟩ := anchored_of_scriptFindings hd
    obtain ⟨rest, hrest⟩ := hanchored.id
    exact ⟨ending, endings, rest, hending, hid.trans hrest⟩
  · exact absurd h.symm (List.cons_ne_nil own script)

/-- A file lies below the directory of its repository. Where there is no repository, the path of the file is the one
that is seen from the current directory. -/
structure LiesIn (path repository : String) : Prop where
  inside : ∃ below, below ≠ [] ∧ Path.normalParts path = Path.normalParts repository ++ below
  plain : repository = "" → Path.relative path "" = path

/-- A path is seen from the repository, if there is one. -/
theorem relativeTo_eq (path : String) (root : Option String) :
    relativeTo path root = if root.getD "" = "" then path else Path.relative path (root.getD "") := by
  cases root <;> rfl

/-- The path of a script is seen from where the path of its file is seen from. -/
theorem relativeTo_renamed (hlies : LiesIn path (root.getD "")) (h : ScriptEnding ending endings) :
    relativeTo (Path.tidy (renamed ending (Path.tidy path))) root =
      Path.relative (renamed ending path) (root.getD "") := by
  rw [relativeTo_eq]
  split
  · rename_i hroot
    have hplain := hlies.plain hroot
    have hne : Path.normalParts path ≠ [] := by
      obtain ⟨below, hne, hbelow⟩ := hlies.inside
      rw [hbelow]
      exact List.append_ne_nil_of_right_ne_nil _ hne
    have hne' : Path.normalParts (renamed ending path) ≠ [] := by
      rw [h.partByPart.normalParts_eq]
      simpa using hne
    have hplain' := h.partByPart.plain hne hplain
    rw [Path.tidy_of_plain hne hplain, Path.tidy_of_plain hne' hplain', hroot, hplain']
  · rw [Path.relative_tidy, Path.relative, Path.relative, h.partByPart.normalParts_eq, h.partByPart.normalParts_eq,
      Path.normalParts_tidy]

/-- Where the repository has no such ending, a script is named after the path of its file from there. -/
theorem scriptName_of_plain_repository (hlies : LiesIn path (root.getD "")) (h : ScriptEnding ending endings)
    (hstem : Path.relative path (root.getD "") = stem ++ ".vue")
    (hroot : ∀ part ∈ Path.normalParts (root.getD ""), Text.has part ".vue" = false) :
    scriptName ending endings (Path.tidy path) root = Path.dotted (renamed ending stem) := by
  obtain ⟨below, hne, hbelow⟩ := hlies.inside
  have hparts : ∀ x ∈ below, Path.IsPart x := fun x hx =>
    Path.isPart_of_mem_normalParts (hbelow ▸ List.mem_append_right _ hx)
  have hkept : (Path.normalParts (root.getD "")).map (renamed ending) = Path.normalParts (root.getD "") := by
    rw [List.map_congr_left fun part hpart => renamed_of_not_has (hroot part hpart), List.map_id']
  have hrenamed : Path.normalParts (renamed ending path) =
      Path.normalParts (root.getD "") ++ below.map (renamed ending) := by
    rw [h.partByPart.normalParts_eq, hbelow, List.map_append, hkept]
  have hseen : Path.relative (renamed ending path) (root.getD "") = renamed ending stem ++ ending := by
    rw [Path.relative_of_inside (by simpa using hne) hrenamed, ← h.partByPart.join_eq hne hparts,
      ← Path.relative_of_inside hne hbelow, hstem, renamed_append_vue]
  rw [scriptName, relativeTo_renamed hlies h, hseen, Path.dropEnding_append]

/-- In a repository with the ending in its path, the name of a script goes up first. -/
theorem begins_scriptName (hlies : LiesIn path (root.getD "")) (h : ScriptEnding ending endings)
    (hroot : ∃ part ∈ Path.normalParts (root.getD ""), Text.has part ".vue" = true) :
    Text.begins (scriptName ending endings (Path.tidy path) root) "." = true := by
  obtain ⟨below, hne, hbelow⟩ := hlies.inside
  have houtside : ¬Path.normalParts (root.getD "") <+: Path.normalParts (renamed ending path) := by
    rw [h.partByPart.normalParts_eq, hbelow, List.map_append]
    intro hinside
    obtain ⟨part, hpart, hhas⟩ := hroot
    have hkept : (Path.normalParts (root.getD "")).map (renamed ending) = Path.normalParts (root.getD "") := by
      have hle := List.prefix_of_prefix_length_le hinside (List.prefix_append _ _) (by simp)
      exact (hle.eq_of_length (by simp)).symm
    have hpart := List.map_inj_left.mp (hkept.trans (List.map_id _).symm) part hpart
    rw [h.renamed_eq_self_iff.mp hpart] at hhas
    exact absurd hhas Bool.false_ne_true
  have hendings : ∀ e ∈ ending :: endings, Text.begins e ".." = false := by
    cases h <;> decide
  rw [scriptName, relativeTo_renamed hlies h]
  exact Path.begins_dotted (Path.begins_dropEnding (Path.begins_relative_of_outside houtside) hendings)

/-- The path of a file inside a repository ends, seen from there, as the path itself does. -/
theorem exists_stem {r : String} (hvue : Text.ends path ".vue" = true) (hlies : LiesIn path r) :
    ∃ stem, Path.relative path r = stem ++ ".vue" := by
  obtain ⟨below, hne, hbelow⟩ := hlies.inside
  obtain ⟨above, name, hname⟩ := Path.exists_normalParts_of_ends (by decide) (by decide) hvue
  obtain ⟨front, last, rfl⟩ := (List.eq_nil_or_concat below).resolve_left hne
  rw [List.concat_eq_append] at hne hbelow
  rw [hbelow, ← List.append_assoc] at hname
  obtain ⟨-, rfl⟩ := List.append_singleton_inj.mp hname
  exact ⟨_, (Path.relative_of_inside hne hbelow).trans (Text.join_concat_append "/" front name ".vue")⟩

/-- A text that begins with a dot does so with more behind. -/
theorem begins_dot_of_append {front rest : String} (h : Text.begins front "." = true) :
    Text.begins (front ++ "." ++ rest) "." = true := by
  rw [Text.begins_append_dot_iff]
  exact .inl h

/-- What begins with a dot does not go on from an identifier that does not. -/
theorem not_begins_of_dot {id front : String} (hid : Text.begins id "." = true) (hne : front ≠ "")
    (hfront : Text.begins front "." = false) : Text.begins id (front ++ ".") = false := by
  rw [Bool.eq_false_iff]
  intro hbegins
  obtain ⟨rest, rfl⟩ := Text.exists_of_begins hbegins
  rcases Text.begins_append_dot_iff.mp hid with hdot | ⟨more, hmore, -⟩
  · rw [hfront] at hdot
    exact absurd hdot Bool.false_ne_true
  · have hlength := congrArg String.length hmore
    have hpos : front.length ≠ 0 := by simpa using hne
    simp only [String.length_append] at hlength
    have hone : ".".length = 1 := rfl
    omega

/-- The identifiers of a script go on from that of its file exactly if the path of the file has `.vue` at its
end only; where the repository has it in its path they do not, unless that of the file is empty or begins with
a dot. -/
theorem script_ids_follow_file {text : Option String} (hvue : Text.ends path ".vue" = true)
    (hlies : LiesIn path (root.getD "")) (h : (analyze parsers ⟨some path, text, root⟩).components = own :: script) :
    own.kind = "vue_component" ∧ ∃ stem, Path.relative path (root.getD "") = stem ++ ".vue" ∧
      own.id = Path.dotted stem ∧
      ∀ k ∈ script,
        ((∀ part ∈ Path.normalParts (root.getD ""), Text.has part ".vue" = false) →
          (Text.begins k.id (own.id ++ ".") = true ↔ Text.has stem ".vue" = false)) ∧
        ((∃ part ∈ Path.normalParts (root.getD ""), Text.has part ".vue" = true) →
          own.id ≠ "" → Text.begins own.id "." = false → Text.begins k.id (own.id ++ ".") = false) := by
  obtain ⟨hkind, hid, hscript⟩ := exists_of_analyze h
  obtain ⟨stem, hstem⟩ := exists_stem hvue hlies
  have hown : own.id = Path.dotted stem := by
    rw [hid, componentId, relativePath, Path.relative_tidy, hstem, Path.dropEnding_append]
  refine ⟨hkind, stem, hstem, hown, fun k hk => ?_⟩
  obtain ⟨ending, endings, rest, hending, hk⟩ := hscript k hk
  constructor
  · intro hroot
    rw [hk, hown, scriptName_of_plain_repository hlies hending hstem hroot]
    exact begins_renamed_iff hending stem rest
  · intro hroot hne hdot
    rw [hk]
    exact not_begins_of_dot (begins_dot_of_append (begins_scriptName hlies hending hroot)) hne hdot

/-- The text of a file with a script. -/
def oneFunction : String :=
  "<script>\nfunction f() \x7b\x7d\n</script>\n"

/-- The tree of that file and that of its script. -/
def oneFunctionParsers : Parsers :=
  { trees := [
      (("vue", oneFunction), .node "component" 0 35 [.node "script_element" 0 34 [
        .node "start_tag" 0 8 [.sign "<" 0 1, .leaf "tag_name" 1 7, .sign ">" 7 8], .leaf "raw_text" 8 25,
        .node "end_tag" 25 34 [.sign "</" 25 27, .leaf "tag_name" 27 33, .sign ">" 33 34]]]),
      (("javascript", "function f() \x7b\x7d\n"), .node "program" 0 16 [.node "function_declaration" 0 15 [
        .sign "function" 0 8, .leaf "identifier" 9 10, .round "formal_parameters" 10 12 [],
        .curly "statement_block" 13 15 []]])] }

/-- In a plain directory the function of the script goes on from the file. -/
theorem function_follows_file :
    ∃ own k, (analyze oneFunctionParsers ⟨some "/r/src/App.vue", some oneFunction, some "/r"⟩).components = [own, k] ∧
      LiesIn "/r/src/App.vue" "/r" ∧ own.id = "src.App" ∧ Text.begins k.id "src.App." = true := by
  obtain ⟨own, k, hall⟩ : ∃ own k,
      (analyze oneFunctionParsers ⟨some "/r/src/App.vue", some oneFunction, some "/r"⟩).components = [own, k] :=
    List.length_eq_two.mp (by decide +kernel)
  have hlies : LiesIn "/r/src/App.vue" "/r" :=
    ⟨⟨["src", "App.vue"], by decide, by decide +kernel⟩, fun hempty => absurd hempty (by decide)⟩
  obtain ⟨-, stem, hstem, hown, hscript⟩ := script_ids_follow_file (by decide +kernel) hlies hall
  have hseen : Path.relative "/r/src/App.vue" "/r" = "src/App" ++ ".vue" := by decide +kernel
  obtain rfl : stem = "src/App" := by
    have hsame := congrArg String.toList (hstem.symm.trans hseen)
    rw [String.toList_append, String.toList_append, List.append_left_inj] at hsame
    exact String.toList_inj.mp hsame
  have hid : own.id = "src.App" := hown.trans (by decide +kernel)
  have hfollows := (hscript k List.mem_cons_self).1 (by decide +kernel)
  rw [hid] at hfollows
  exact ⟨own, k, hall, hlies, hid, hfollows.mpr (by decide +kernel)⟩

/-- In a directory that is named like a file, it does not. -/
theorem function_apart_from_file :
    Text.ends "/r/old.vue/App.vue" ".vue" = true ∧
      ∃ own k, (analyze oneFunctionParsers ⟨some "/r/old.vue/App.vue", some oneFunction, some "/r"⟩).components =
          [own, k] ∧
        own.id = "old.vue.App" ∧ k.id = "old.js.App.f" ∧ Text.begins k.id (own.id ++ ".") = false := by
  obtain ⟨own, k, hall⟩ : ∃ own k,
      (analyze oneFunctionParsers ⟨some "/r/old.vue/App.vue", some oneFunction, some "/r"⟩).components = [own, k] :=
    List.length_eq_two.mp (by decide +kernel)
  have hids : (analyze oneFunctionParsers ⟨some "/r/old.vue/App.vue", some oneFunction, some "/r"⟩).components.map
      (·.id) = ["old.vue.App", "old.js.App.f"] := by decide +kernel
  rw [hall] at hids
  have hown : own.id = "old.vue.App" := (List.cons.inj hids).1
  have hk : k.id = "old.js.App.f" := (List.cons.inj (List.cons.inj hids).2).1
  refine ⟨by decide +kernel, own, k, hall, hown, hk, ?_⟩
  rw [hown, hk]
  decide +kernel

end RepoAtlas.Extract.Vue
