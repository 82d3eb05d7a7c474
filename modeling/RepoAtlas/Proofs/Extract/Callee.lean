import RepoAtlas.Proofs.Extract.Caller
import RepoAtlas.Proofs.Extract.Trace

/-!
# Resolved callees are components

A reference is taken for resolved if its name is in the table of the file, and the identifier of the callee is
made from the name. That is always the identifier of a component of the same file.
-/

namespace RepoAtlas

/-- Whatever is taken for resolved refers to a component. -/
def Findings.ResolvedListed (f : Findings) : Prop :=
  ∀ r ∈ f.relationships, r.resolved = true → r.callee ∈ f.ids

/-- The ends of relationships, and whether they are resolved. -/
def Findings.ends (f : Findings) : List (String × String × Bool) :=
  f.relationships.map fun r => (r.caller, r.callee, r.resolved)

namespace Extract

open Syntax

variable {s : Source} {root c : Cursor} {name : String} {r : Relationship} {f : Findings}

namespace Python

open Grammar

variable {m : Module} {v : Visit} {d : Component}

/-- The names that a visit knows are those of components, and so is all that it has resolved. -/
structure Visit.Sound (m : Module) (v : Visit) : Prop where
  known : ∀ n ∈ v.known, m.name ++ "." ++ n ∈ v.findings.ids
  resolved : v.findings.ResolvedListed

/-- An identifier is the name of the module, a dot and the name. -/
theorem id_of_component? {kind : String} {line endLine : Nat} {body : List Phrase}
    (h : component? m kind name line endLine body = some d) : d.id = m.name ++ "." ++ d.name := by
  obtain ⟨hid, hname, -⟩ := told_of_component? h
  rw [hid, hname]

/-- A visit stays sound when it finds a component. -/
theorem Visit.Sound.declare (hv : v.Sound m) (hd : d.id = m.name ++ "." ++ d.name) :
    (v.declare d).Sound m := by
  have hids : (v.declare d).findings.ids = v.findings.ids ++ [d.id] := by
    simp [Visit.declare, Findings.ids]
  refine ⟨fun n hn => ?_, fun r hr hresolved => ?_⟩
  · rw [hids]
    rcases List.mem_cons.mp hn with rfl | hn
    · exact List.mem_append_right _ (List.mem_singleton.mpr hd.symm)
    · exact List.mem_append_left _ (hv.known n hn)
  · rw [hids]
    exact List.mem_append_left _ (hv.resolved r hr hresolved)

/-- So it does when it relates what is listed. -/
theorem Visit.Sound.relate {rs : List Relationship} (hv : v.Sound m)
    (hrs : ∀ r ∈ rs, r.resolved = true → r.callee ∈ v.findings.ids) : (v.relate rs).Sound m := by
  refine ⟨hv.known, fun r hr hresolved => ?_⟩
  rcases List.mem_append.mp hr with hr | hr
  · exact hv.resolved r hr hresolved
  · exact hrs r hr hresolved

/-- So it does at a class. -/
theorem Visit.Sound.declareClass (hv : v.Sound m) (hd : d.id = m.name ++ "." ++ d.name)
    (bases : List String) : (v.declareClass m d bases).Sound m := by
  have hdeclared : (v.declare
      { d with baseClasses := if bases.isEmpty then none else some bases }).Sound m := hv.declare hd
  refine hdeclared.relate fun r hr _ => ?_
  obtain ⟨b, hb, rfl⟩ := List.mem_map.mp hr
  exact hdeclared.known b (by simpa using (List.mem_filter.mp hb).2)

/-- So it does at a function. -/
theorem Visit.Sound.declareFunction (hv : v.Sound m) (hd : d.id = m.name ++ "." ++ d.name)
    (parameters : List String) : (v.declareFunction d parameters).Sound m := by
  unfold Visit.declareFunction
  split
  · exact hv
  · exact hv.declare hd

/-- So it does at a call. -/
theorem Visit.Sound.call (hv : v.Sound m) (line : Nat) (callee : Phrase) : (v.call m line callee).Sound m := by
  unfold Visit.call
  split
  · rename_i caller name hcaller hname
    refine hv.relate fun r hr hresolved => ?_
    obtain rfl := List.mem_singleton.mp hr
    have hknown : v.known.contains name = true := hresolved
    rw [if_pos hknown]
    exact hv.known name (by simpa using hknown)
  · exact hv

/-- Every event keeps a visit sound. -/
theorem Visit.invariant_sound (m : Module) : Invariant m (Visit.Sound m) where
  place hv hfindings hknown := ⟨by rw [hknown, hfindings]; exact hv.known, by rw [hfindings]; exact hv.resolved⟩
  declareClass hd hv := hv.declareClass (id_of_component? hd)
  declareFunction hd hv := hv.declareFunction (id_of_component? hd)
  call hv := hv.call

/-- What a visit resolves is listed. -/
theorem resolvedListed_visitAll (m : Module) (ps : List Phrase) : (visitAll m {} ps).findings.ResolvedListed := by
  have hstart : Visit.Sound m {} :=
    ⟨fun n hn => absurd hn List.not_mem_nil, fun r hr => absurd hr List.not_mem_nil⟩
  rw [findings_visitAll]
  exact ((Visit.invariant_sound m).run hstart (eventsAll ps)).resolved

end Python

namespace Go

variable {k : Context} {current : Option Enclosing}

/-- What is remembered was found. -/
theorem mem_of_remembered {found : List (Component × List String)} {d : Component}
    (h : (remembered found).get? name = some d) : d.id ∈ (found.map (·.1)).map (·.id) := by
  obtain ⟨⟨d', names⟩, he, h⟩ := List.mem_flatMap.mp (Keyed.mem_of_get?_ofList h)
  obtain ⟨n, -, heq⟩ := List.mem_map.mp h
  cases heq
  exact List.mem_map_of_mem (List.mem_map.mpr ⟨_, he, rfl⟩)

/-- What is resolved in Go is listed. -/
theorem resolvedListed_findings : (findings s root).findings.ResolvedListed := by
  intro r hr hresolved
  obtain ⟨hids, k, now, c, hk, -, hr⟩ := exists_of_mem_findings hr
  rcases called_or_embedded hr with ⟨e, rs, -, -, hrs, hr⟩ | hembedded
  · obtain ⟨key, d, hd, hcallee⟩ := (told_of_callAt hrs hr).2.2 hresolved
    rw [hk] at hd
    rw [hids, hcallee]
    exact mem_of_remembered hd
  · exact absurd (hresolved.symm.trans hembedded.resolved) (by decide)

end Go

namespace CSharp

variable {all : List Component} {rs : List Relationship}

/-- Uses of types are not resolved. -/
theorem resolved_of_usesType {owner : String} {type? : Option Cursor}
    (h : usesType s c owner type? = .ok rs) (hr : r ∈ rs) : r.resolved = false := by
  obtain ⟨type, -, h⟩ := bind_eq_ok.mp h
  split at h
  · cases h
    cases hr
  · cases h
    obtain ⟨-, rfl⟩ := mem_unless hr
    rfl

/-- A class is related to bases that the file declares. -/
theorem callee_of_inheritsAt {table : Declarations} (h : inheritsAt s table c = .ok rs) (hr : r ∈ rs) :
    ∃ base, table.has base = true ∧ r.callee = qualify (moduleName s) base := by
  obtain ⟨name?, -, h⟩ := bind_eq_ok.mp h
  split at h
  · obtain ⟨d, -, found, hfound, hr⟩ := exists_of_mem_collect h hr
    obtain ⟨base, -, hfound⟩ := bind_eq_ok.mp hfound
    cases hfound
    split at hr
    · rename_i hhas
      rw [List.mem_singleton.mp hr]
      exact ⟨base, hhas, by dsimp only⟩
    · cases hr
  · cases h
    cases hr

/-- Only known bases are resolved. -/
theorem callee_of_relationshipsAt {table : Declarations} (h : relationshipsAt s table c = .ok rs) (hr : r ∈ rs)
    (hresolved : r.resolved = true) : ∃ base, table.has base = true ∧ r.callee = qualify (moduleName s) base := by
  -- Uses of types are not resolved, so only the bases of a class are left.
  have huses : ∀ owner type? found, usesType s c owner type? = .ok found → r ∉ found :=
    fun owner type? found hfound hmem =>
      absurd (hresolved.symm.trans (resolved_of_usesType hfound hmem)) (by decide)
  obtain ⟨owner?, -, h⟩ := bind_eq_ok.mp h
  split at h
  · exact callee_of_inheritsAt h hr
  split at h
  · cases h
    cases hr
  split at h
  · split at h
    · exact absurd hr (huses _ _ _ h)
    · cases h
      cases hr
  split at h
  · exact absurd hr (huses _ _ _ h)
  split at h
  · split at h
    · cases h
      cases hr
    · obtain ⟨p, -, found, hfound, hr⟩ := exists_of_mem_collect h hr
      exact absurd hr (huses _ _ _ hfound)
  · cases h
    cases hr

/-- What is resolved in C# is listed. -/
theorem resolvedListed_findings (h : findings s root = .ok f) : f.ResolvedListed := by
  have hid : ∀ d ∈ f.components, d.id = qualify (moduleName s) d.name := by
    intro d hd
    obtain ⟨n, -, kind, e, name, -, -, -, rfl⟩ := exists_of_findings h hd
    simp only [declared]
  obtain ⟨all, hall, h⟩ := bind_eq_ok.mp h
  obtain ⟨relationships, hrelationships, h⟩ := bind_eq_ok.mp h
  cases h
  intro r hr hresolved
  obtain ⟨c, -, found, hfound, hmem⟩ := exists_of_mem_collect hrelationships hr
  obtain ⟨base, hhas, hcallee⟩ := callee_of_relationshipsAt hfound hmem hresolved
  rw [hcallee]
  exact mem_ids_of_has hid hhas

end CSharp

namespace Query

/-- What queries resolve is listed, and is not the caller. -/
theorem resolvedListed_findings {captures : Captures} (h : findings s root captures = .ok f) :
    f.ResolvedListed ∧ ∀ r ∈ f.relationships, r.resolved = true → r.caller ≠ r.callee := by
  obtain ⟨⟨definitions, references⟩, -, h⟩ := bind_eq_ok.mp h
  cases h
  have hrelated : ∀ r, ∀ reference, relationship? s definitions
      (Keyed.ofList (definitions.map fun d => (d.name, d.id s))) reference = some r →
      r.resolved = true →
        r.callee ∈ (definitions.map (·.component s)).map (·.id) ∧ r.caller ≠ r.callee := by
    intro r reference hr hresolved
    unfold relationship? at hr
    split at hr
    · cases hr
    · split at hr
      · cases hr
      · split at hr
        · rename_i callee hcallee
          split at hr
          · cases hr
          · rename_i hne
            obtain rfl := Option.some.inj hr
            obtain ⟨d, hd, heq⟩ := List.mem_map.mp (Keyed.mem_of_get?_ofList hcallee)
            obtain rfl := (Prod.mk.inj heq).2
            exact ⟨List.mem_map.mpr ⟨d.component s, List.mem_map_of_mem hd, rfl⟩, hne⟩
        · obtain rfl := Option.some.inj hr
          exact absurd hresolved Bool.false_ne_true
  refine ⟨fun r hr hresolved => ?_, fun r hr hresolved => ?_⟩
  · obtain ⟨reference, -, hr⟩ := List.mem_filterMap.mp hr
    exact (hrelated r reference hr hresolved).1
  · obtain ⟨reference, -, hr⟩ := List.mem_filterMap.mp hr
    exact (hrelated r reference hr hresolved).2

end Query

/-- What is taken for resolved in a Python, Go or C# file or among captured references is a component of the
same file. -/
theorem resolved_callees_are_components (parsers : Parsers) (file : SourceFile) :
    (∀ m ps, (Python.visitAll m {} ps).findings.ResolvedListed) ∧
    (∀ statements? f, Python.analyze statements? file = .ok f → f.ResolvedListed) ∧
    (∀ f, Go.analyze parsers file = .ok f → f.findings.ResolvedListed) ∧
    (∀ f, CSharp.analyze parsers file = .ok f → f.ResolvedListed) ∧
    (∀ queries language f, Query.analyze parsers queries language file = .ok (some f) →
      f.ResolvedListed ∧ ∀ r ∈ f.relationships, r.resolved = true → r.caller ≠ r.callee) := by
  refine ⟨Python.resolvedListed_visitAll, ?_, ?_, ?_, ?_⟩
  · intro statements? f h
    obtain ⟨text, -, h⟩ := bind_eq_ok.mp h
    split at h
    · obtain rfl := Except.ok.inj h
      exact fun r hr => absurd hr List.not_mem_nil
    · obtain rfl := Except.ok.inj h
      exact Python.resolvedListed_visitAll _ _
  · intro f h
    rcases Go.findings_of_analyze h with ⟨s, root, rfl⟩ | rfl
    · exact Go.resolvedListed_findings
    · exact fun r hr => absurd hr List.not_mem_nil
  · intro f h
    obtain ⟨⟨s, root⟩, -, h⟩ := bind_eq_ok.mp h
    exact CSharp.resolvedListed_findings h
  · intro queries language f h
    obtain ⟨root, captures, h⟩ := Query.findings_of_analyze h
    exact Query.resolvedListed_findings h

/-- Go source with a function that calls another. -/
def goFunctions : SourceFile :=
  ⟨some "/r/a.go", some "package p\n\nfunc B() \x7b\x7d\n\nfunc A() \x7b B() \x7d\n", some "/r"⟩

/-- C# source with a class and one that has it as its base. -/
def csharpClasses : SourceFile :=
  ⟨some "/r/a.cs", some "class B \x7b\x7d\nclass A : B \x7b\x7d\n", some "/r"⟩

/-- Python source with a class and one that has it as its base. -/
def pythonClasses : SourceFile :=
  ⟨some "/r/a.py", some "class B: pass\nclass A(B): pass\n", some "/r"⟩

/-- The trees of the Go and the C# file. -/
def calleeTrees : Parsers where
  trees := [
    (("go", goFunctions.text.getD ""), .node "source_file" 0 41 [
      .node "package_clause" 0 9 [.sign "package" 0 7, .leaf "package_identifier" 8 9],
      .node "function_declaration" 11 22 [
        .sign "func" 11 15, .leaf "identifier" 16 17, .leaf "parameter_list" 17 19, .leaf "block" 20 22],
      .node "function_declaration" 24 40 [
        .sign "func" 24 28, .leaf "identifier" 29 30, .leaf "parameter_list" 30 32,
        .node "block" 33 40 [.node "expression_statement" 35 38 [
          .node "call_expression" 35 38 [.leaf "identifier" 35 36, .leaf "argument_list" 36 38]]]]]),
    (("csharp", csharpClasses.text.getD ""), .node "compilation_unit" 0 26 [
      .node "class_declaration" 0 10 [.sign "class" 0 5, .leaf "identifier" 6 7, .leaf "declaration_list" 8 10],
      .node "class_declaration" 11 25 [
        .sign "class" 11 16, .leaf "identifier" 17 18,
        .node "base_list" 19 22 [.sign ":" 19 20, .leaf "identifier" 21 22], .leaf "declaration_list" 23 25]])]

/-- Captures in the Go tree: both functions and the call. -/
def calleeCaptures : Query.Queries where
  languages := ["go"]
  captures := [(("go", goFunctions.text.getD ""), [("definition.function", [6, 11]), ("reference.call", [16])])]

/-- What `A` refers to in short files is resolved to the component `B` in all four analyses. -/
theorem short_file_callees_listed :
    (∃ f, Python.analyze Grammar.program? pythonClasses = .ok f ∧ f.ends = [("a.A", "a.B", true)] ∧
      f.ResolvedListed) ∧
    (∃ f, Go.analyze calleeTrees goFunctions = .ok f ∧
      f.findings.ends = [("a.A", "a.B", true)] ∧ f.findings.ResolvedListed) ∧
    (∃ f, CSharp.analyze calleeTrees csharpClasses = .ok f ∧
      f.ends = [("a.A", "a.B", true)] ∧ f.ResolvedListed) ∧
    (∃ f, Query.analyze calleeTrees calleeCaptures "go" goFunctions = .ok (some f) ∧
      f.ends = [("a.A", "a.B", true)] ∧ f.ResolvedListed ∧
      ∀ r ∈ f.relationships, r.resolved = true → r.caller ≠ r.callee) := by
  have hpython := resolved_callees_are_components calleeTrees pythonClasses
  have hgo := resolved_callees_are_components calleeTrees goFunctions
  have hcsharp := resolved_callees_are_components calleeTrees csharpClasses
  refine ⟨?_, ?_, ?_, ?_⟩
  · have hends : (Python.analyze Grammar.program? pythonClasses).toOption.map Findings.ends =
        some [("a.A", "a.B", true)] := by decide +kernel
    obtain ⟨f, hf, hends⟩ := exists_of_map_toOption hends
    exact ⟨f, hf, hends, hpython.2.1 _ f hf⟩
  · have hends : ((Go.analyze calleeTrees goFunctions).toOption.map fun f => f.findings.ends) =
        some [("a.A", "a.B", true)] := by decide +kernel
    obtain ⟨f, hf, hends⟩ := exists_of_map_toOption hends
    exact ⟨f, hf, hends, hgo.2.2.1 f hf⟩
  · have hends : (CSharp.analyze calleeTrees csharpClasses).toOption.map Findings.ends =
        some [("a.A", "a.B", true)] := by decide +kernel
    obtain ⟨f, hf, hends⟩ := exists_of_map_toOption hends
    exact ⟨f, hf, hends, hcsharp.2.2.2.1 f hf⟩
  · have hends : (Query.analyze calleeTrees calleeCaptures "go" goFunctions).toOption.join.map
        Findings.ends = some [("a.A", "a.B", true)] := by decide +kernel
    obtain ⟨f, hf, hends⟩ := Option.map_eq_some_iff.mp hends
    have hquery := eq_ok_of_toOption (Option.join_eq_some_iff.mp hf)
    exact ⟨f, hquery, hends, hgo.2.2.2.2 calleeCaptures "go" f hquery⟩

end Extract

end RepoAtlas
