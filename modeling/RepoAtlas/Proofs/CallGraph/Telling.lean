import Mathlib.Data.List.Nodup
import RepoAtlas.CallGraph.View
import RepoAtlas.Proofs.CallGraph.Drawing

/-!
# What is told of functions

A telling takes a relationship for one of a function if an identifier ends in the name of the function. It gives
the function's own edges exactly if no other identifier at that end of a relationship does. A function is told
to be recursive if a relationship refers to its bare name.
-/

namespace RepoAtlas

namespace Json

/-- An object that is made of members is a table filled in turn. -/
theorem ofMembers_eq (members : List (String × Json)) : ofMembers members = .obj (Keyed.ofList members).entries := by
  have hput : ∀ name value ms, insertMember name value ms = Keyed.put name value ms := by
    intro name value ms
    induction ms with
    | nil => rfl
    | cons m ms ih => simp only [insertMember, Keyed.put, ih]
  have hfold : ∀ t : Keyed Json, members.foldl (fun acc m => insertMember m.1 m.2 acc) t.entries =
      (members.foldl (fun t m => t.insert m.1 m.2) t).entries := by
    induction members with
    | nil => exact fun t => rfl
    | cons m members ih =>
      intro t
      rw [List.foldl_cons, List.foldl_cons, hput]
      exact ih (t.insert m.1 m.2)
  exact congrArg Json.obj (hfold Keyed.empty)

/-- A member is found by its name. -/
theorem field_ofMembers {members : List (String × Json)} (hnodup : (members.map (·.1)).Nodup) {name : String}
    {value : Json} (h : (name, value) ∈ members) : (ofMembers members).field name = value := by
  have hlookup : (Keyed.ofList members).get? name = some value := by
    rw [Keyed.ofList_eq_insertAll, Keyed.get?_insertAll, (Keyed.lookup_eq_some_iff _).mpr
      (List.mem_reverse.mpr h), Option.some_or]
    rwa [List.map_reverse, List.nodup_reverse]
  rw [ofMembers_eq]
  exact congrArg (·.getD .null) hlookup

/-- The texts among the items of an array. -/
def texts (j : Json) : List String :=
  j.items.filterMap str?

/-- Texts are told as they are. -/
theorem texts_strings (xs : List String) : (strings xs).texts = xs := by
  simp [texts, strings, items, List.filterMap_map, Function.comp_def, str?]

end Json

namespace CallGraph

variable {g : CallGraph} {c : Component} {r : Relationship}

/-- What a function with a name is told to call. -/
def callsTold (t : Json) (name : String) : List String :=
  (((t.field "relationships").field name).field "calls").texts

/-- What is told to call a function with a name. -/
def callersTold (t : Json) (name : String) : List String :=
  (((t.field "relationships").field name).field "called_by").texts

/-- A function with a name is told to be recursive. -/
def RecursionTold (t : Json) (name : String) : Prop :=
  ∃ f ∈ (t.field "functions").items,
    (f.field "name").str? = some name ∧ (f.field "is_recursive").bool? = some true

/-- The entries for what is called by the identifiers with a property: the callees of their resolved
relationships, behind the last colon. -/
def callsOf (g : CallGraph) (p : String → Bool) : List String :=
  ((g.relationships.filter (·.resolved)).filter fun r => p r.caller).map fun r =>
    Text.afterLast ':' r.callee

/-- The entries for what calls the identifiers with a property: the callers of the resolved relationships
that refer to them, behind the last colon. -/
def callersOf (g : CallGraph) (p : String → Bool) : List String :=
  ((g.relationships.filter (·.resolved)).filter fun r => p r.callee).map fun r =>
    Text.afterLast ':' r.caller

/-- Some relationship of a function refers to the function itself. -/
def Recursive (g : CallGraph) (c : Component) : Prop :=
  ∃ r ∈ g.relationships, r.caller = c.id ∧ r.callee = c.id

/-- No two functions have the same name. -/
def DistinctNames (g : CallGraph) : Prop :=
  (g.functions.values.map (·.name)).Nodup

/-- Where names are distinct, the calls of each function are told under its name. -/
theorem DistinctNames.field_telling (hnames : g.DistinctNames) (hc : c ∈ g.functions.values) :
    (g.telling.field "relationships").field c.name = g.toldCalls c := by
  have hkeys : ((g.functions.values.map fun c => (c.name, g.toldCalls c)).map (·.1)).Nodup := by
    rwa [List.map_map]
  exact Json.field_ofMembers hkeys (List.mem_map_of_mem (f := fun c => (c.name, g.toldCalls c)) hc)

/-- The calls that are told of a function are those of all identifiers that end in its name. -/
theorem DistinctNames.callsTold_eq (hnames : g.DistinctNames) (hc : c ∈ g.functions.values) :
    callsTold g.telling c.name = g.callsOf (Text.ends · c.name) := by
  rw [callsTold, hnames.field_telling hc]
  exact Json.texts_strings _

/-- The callers that are told of a function are those of all identifiers that end in its name. -/
theorem DistinctNames.callersTold_eq (hnames : g.DistinctNames) (hc : c ∈ g.functions.values) :
    callersTold g.telling c.name = g.callersOf (Text.ends · c.name) := by
  rw [callersTold, hnames.field_telling hc]
  exact Json.texts_strings _

/-- A function is told to be recursive if what an identifier ending in its name refers to is that
name. -/
theorem DistinctNames.recursionTold_iff (hnames : g.DistinctNames) (hc : c ∈ g.functions.values) :
    RecursionTold g.telling c.name ↔ ∃ r ∈ g.relationships, Text.ends r.caller c.name = true ∧ r.callee = c.name := by
  have hflag : ∀ d : Component, ((g.toldFunction d).field "is_recursive").bool? = some true ↔
      ∃ r ∈ g.relationships, Text.ends r.caller d.name = true ∧ r.callee = d.name := by
    intro d
    change some (g.relationships.any _) = some true ↔ _
    simp
  constructor
  · rintro ⟨f, hf, hname, hrecursive⟩
    obtain ⟨d, hd, rfl⟩ := List.mem_map.mp hf
    obtain rfl : d = c := List.inj_on_of_nodup_map hnames hd hc (Option.some.inj hname)
    exact (hflag d).mp hrecursive
  · intro hrecursive
    exact ⟨g.toldFunction c, List.mem_map_of_mem hc, rfl, (hflag c).mpr hrecursive⟩

/-- A wider choice from a list gives the same exactly if it chooses no others. -/
theorem map_filter_eq_iff {α β : Type} {p q : α → Bool} {l : List α} (f : α → β)
    (himp : ∀ x ∈ l, q x = true → p x = true) :
    (l.filter p).map f = (l.filter q).map f ↔ ∀ x ∈ l, p x = true → q x = true := by
  have hnarrow : l.filter q = (l.filter p).filter q := by
    rw [List.filter_filter]
    refine List.filter_congr fun x hx => ?_
    cases hq : q x with
    | false => rfl
    | true => rw [himp x hx hq]; rfl
  constructor
  · intro heq x hx hp
    have hlength := congrArg List.length heq
    rw [List.length_map, List.length_map, hnarrow] at hlength
    exact List.length_filter_eq_length_iff.mp hlength.symm x (List.mem_filter.mpr ⟨hx, hp⟩)
  · intro hall
    have hself : (l.filter p).filter q = l.filter p := by
      rw [List.filter_eq_self]
      intro x hx
      exact hall x (List.mem_filter.mp hx).1 (List.mem_filter.mp hx).2
    rw [hnarrow, hself]

/-- The calls of several identifiers are those of one exactly if no relationship has another as its caller. -/
theorem callsOf_eq_iff {p : String → Bool} {id : String} (hid : p id = true) :
    g.callsOf p = g.callsOf (· = id) ↔
      ∀ r ∈ g.relationships, r.resolved = true → p r.caller = true → r.caller = id := by
  rw [callsOf, callsOf, map_filter_eq_iff]
  · simp
  · intro r _ hr
    rwa [of_decide_eq_true hr]

/-- The callers of several identifiers are those of one exactly if no relationship refers to another. -/
theorem callersOf_eq_iff {p : String → Bool} {id : String} (hid : p id = true) :
    g.callersOf p = g.callersOf (· = id) ↔
      ∀ r ∈ g.relationships, r.resolved = true → p r.callee = true → r.callee = id := by
  rw [callersOf, callersOf, map_filter_eq_iff]
  · simp
  · intro r _ hr
    rwa [of_decide_eq_true hr]

/-- A call graph that an analysis gives. -/
def Analysed (g : CallGraph) : Prop :=
  ∃ (s : Site) (before : CallGraph) (files : List Listed) (report : Report),
    s.analyze before files = .ok report ∧ report.graph = g

/-- In an analysed call graph no relationship of a component refers to its bare name, unless that is a
key. -/
theorem Analysed.callee_ne_name (hg : g.Analysed) (hc : g.functions.get? c.id = some c)
    (hname : c.name ∉ g.functions.keys) (hr : r ∈ g.relationships) (hcaller : r.caller = c.id) :
    r.callee ≠ c.name := by
  obtain ⟨s, before, files, report, hreport, rfl⟩ := hg
  rw [Site.graph_of_analyze hreport] at hc hname hr
  change _ ∉ (s.gathered before files).resolve.matchInterfaces.functions.keys at hname
  rw [keys_matched] at hname
  rintro hcallee
  rcases List.mem_append.mp (List.mem_of_find?_eq_some (mem_relationships_analysis.mp hr)) with
    hmapped | hmatched
  · obtain ⟨r₀, -, rfl⟩ := List.mem_map.mp hmapped
    rcases htarget : targetOf? (s.gathered before files).functions r₀ with _ | id
    · -- Nothing goes by the name where the caller stands, but the caller itself does.
      simp only [resolvedIn, htarget] at hcaller hcallee
      obtain ⟨c₀, hc₀, hsame, -⟩ := exists_component_of_matchInterfaces hc
      have hunknown := (unknown_of_target? htarget).nearby c₀ (hcaller ▸ hc₀) c.id c₀
        ((Keyed.get?_eq_some_iff _).mp hc₀) rfl
      have hnames : (unmatched c).name = (unmatched c₀).name := congrArg Component.name hsame
      rw [hcallee, show c.name = c₀.name from hnames] at hunknown
      exact hunknown List.mem_cons_self
    · simp only [resolvedIn, htarget] at hcallee
      exact hname (hcallee ▸ mem_keys_of_target? htarget)
  · obtain ⟨pair, -, hpair⟩ := List.mem_filterMap.mp hmatched
    exact hname (hcallee ▸
      (ends_of_implementation? (Site.typesByIdentifier_gathered s before files) hpair).2)

/-- The calls and callers told of a function are those of all identifiers that end in its name, so they are
its own exactly if no other one does. It is told to be recursive exactly if such an identifier refers to the
bare name. -/
theorem edges_told_own_iff (hnames : g.DistinctNames) (hc : c ∈ g.functions.values) :
    callsTold g.telling c.name = g.callsOf (Text.ends · c.name) ∧
    callersTold g.telling c.name = g.callersOf (Text.ends · c.name) ∧
    (Text.ends c.id c.name = true →
      (callsTold g.telling c.name = g.callsOf (· = c.id) ↔ ∀ r ∈ g.relationships,
        r.resolved = true → Text.ends r.caller c.name = true → r.caller = c.id) ∧
      (callersTold g.telling c.name = g.callersOf (· = c.id) ↔ ∀ r ∈ g.relationships,
        r.resolved = true → Text.ends r.callee c.name = true → r.callee = c.id)) ∧
    (RecursionTold g.telling c.name ↔
      ∃ r ∈ g.relationships, Text.ends r.caller c.name = true ∧ r.callee = c.name) ∧
    (g.Analysed → g.functions.get? c.id = some c → c.name ∉ g.functions.keys →
      (RecursionTold g.telling c.name ↔ ∃ r ∈ g.relationships, r.caller ≠ c.id ∧
        Text.ends r.caller c.name = true ∧ r.callee = c.name)) := by
  rw [hnames.callsTold_eq hc, hnames.callersTold_eq hc, hnames.recursionTold_iff hc]
  refine ⟨rfl, rfl, fun hid => ⟨callsOf_eq_iff hid, callersOf_eq_iff hid⟩, Iff.rfl, ?_⟩
  intro hg hkey hname
  constructor
  · rintro ⟨r, hr, hends, hcallee⟩
    have hother : r.caller ≠ c.id := fun hcaller =>
      hg.callee_ne_name hkey hname hr hcaller hcallee
    exact ⟨r, hr, hother, hends, hcallee⟩
  · rintro ⟨r, hr, -, hends, hcallee⟩
    exact ⟨r, hr, hends, hcallee⟩

/-- Two files, each with a recursive function `get` and a function that calls it, whose name ends in `get` in
the first file only. -/
def getters : Site where
  toolbox := {}
  files := .directory true [("r", .directory true [
    ("a.py", .file "def get():\n    get()\ndef widget():\n    get()\n".toUTF8.toList),
    ("b.py", .file "def get():\n    get()\ndef put():\n    get()\n".toUTF8.toList)])]
  root := "/r"

/-- The file with a function whose name ends in that of another. -/
def widgetFile : Site.Contents :=
  [("a.py", "python", "def get():\n    get()\ndef widget():\n    get()\n")]

/-- The file with names none of which ends in another. -/
def putFile : Site.Contents :=
  [("b.py", "python", "def get():\n    get()\ndef put():\n    get()\n")]

/-- Of a function with a name of its own the edges are told, but not that it is recursive. -/
theorem put_edges_told :
    ∃ report c, getters.analyze {} putFile.listed = .ok report ∧ report.graph.DistinctNames ∧
      c ∈ report.graph.functions.values ∧ c.name = "get" ∧ c.id = "b.get" ∧
      Recursive report.graph c ∧
      callsTold report.graph.telling "get" = report.graph.callsOf (· = "b.get") ∧
      callersTold report.graph.telling "get" = report.graph.callersOf (· = "b.get") ∧
      report.graph.callersOf (· = "b.get") = ["b.get", "b.put"] ∧
      ¬RecursionTold report.graph.telling "get" := by
  have hholds : getters.Holds putFile := by decide +kernel
  obtain ⟨report, hreport⟩ := Site.exists_report_listed getters {} putFile
  obtain ⟨hnames, hfound, hkey, hself, hcallers⟩ : report.graph.DistinctNames ∧
      (report.graph.functions.get? "b.get").map (fun c => (c.name, c.id)) = some ("get", "b.get") ∧
      "get" ∉ report.graph.functions.keys ∧
      (∃ r ∈ report.graph.relationships, r.caller = "b.get" ∧ r.callee = "b.get") ∧
      report.graph.callersOf (· = "b.get") = ["b.get", "b.put"] := by
    unfold DistinctNames
    rw [Site.graph_of_analyze hreport, Site.gathered, hholds.results_listed]
    decide +kernel
  obtain ⟨hcallerEnds, hcalleeEnds⟩ :
      (∀ r ∈ report.graph.relationships, Text.ends r.caller "get" = true → r.caller = "b.get") ∧
      ∀ r ∈ report.graph.relationships, Text.ends r.callee "get" = true → r.callee = "b.get" := by
    rw [Site.graph_of_analyze hreport, Site.gathered, hholds.results_listed]
    decide +kernel
  obtain ⟨c, hc, hlabel⟩ := Option.map_eq_some_iff.mp hfound
  obtain ⟨hname, hid⟩ := Prod.mk.inj hlabel
  have hvalue : c ∈ report.graph.functions.values :=
    Keyed.mem_values_of_mem ((Keyed.get?_eq_some_iff _).mp hc)
  obtain ⟨-, -, hown, -, hrecursion⟩ := edges_told_own_iff hnames hvalue
  rw [hname, hid] at hown hrecursion
  obtain ⟨hcalls, hcalled⟩ := hown (by decide)
  refine ⟨report, c, hreport, hnames, hvalue, hname, hid, by rwa [Recursive, hid],
    hcalls.mpr fun r hr _ => hcallerEnds r hr, hcalled.mpr fun r hr _ => hcalleeEnds r hr, hcallers, ?_⟩
  rw [hrecursion ⟨getters, {}, putFile.listed, report, hreport, rfl⟩ hc hkey]
  rintro ⟨r, hr, hother, hends, -⟩
  exact hother (hcallerEnds r hr hends)

/-- A function is told the calls of another whose name ends in its own, and not that it is recursive. -/
theorem widget_calls_told_of_get :
    ∃ report c, getters.analyze {} widgetFile.listed = .ok report ∧ report.graph.DistinctNames ∧
      c ∈ report.graph.functions.values ∧ c.name = "get" ∧ c.id = "a.get" ∧
      callsTold report.graph.telling "get" = ["a.get", "a.get"] ∧
      report.graph.callsOf (· = "a.get") = ["a.get"] ∧
      Recursive report.graph c ∧ ¬RecursionTold report.graph.telling "get" := by
  have hholds : getters.Holds widgetFile := by decide +kernel
  obtain ⟨report, hreport⟩ := Site.exists_report_listed getters {} widgetFile
  obtain ⟨hnames, hfound, htold, hcalls, hself, hrecursion⟩ : report.graph.DistinctNames ∧
      (report.graph.functions.get? "a.get").map (fun c => (c.name, c.id)) = some ("get", "a.get") ∧
      callsTold report.graph.telling "get" = ["a.get", "a.get"] ∧
      report.graph.callsOf (· = "a.get") = ["a.get"] ∧
      (∃ r ∈ report.graph.relationships, r.caller = "a.get" ∧ r.callee = "a.get") ∧
      ¬RecursionTold report.graph.telling "get" := by
    unfold DistinctNames RecursionTold
    rw [Site.graph_of_analyze hreport, Site.gathered, hholds.results_listed]
    decide +kernel
  obtain ⟨c, hc, hlabel⟩ := Option.map_eq_some_iff.mp hfound
  obtain ⟨hname, hid⟩ := Prod.mk.inj hlabel
  exact ⟨report, c, hreport, hnames, Keyed.mem_values_of_mem ((Keyed.get?_eq_some_iff _).mp hc), hname,
    hid, htold, hcalls, by rwa [Recursive, hid], hrecursion⟩

end CallGraph

end RepoAtlas
