import RepoAtlas.Proofs.Extract.GoReadable
import RepoAtlas.Proofs.Keyed

/-!
# Direct calls in Go files

A file remembers functions, methods and types in one table, methods under their bare names as well. So a direct
call is related to the last declaration with its name, which may be a method.
-/

namespace RepoAtlas.Extract.Go

open Syntax

variable {s : Source} {root a c callee : Cursor} {k : Context} {f : Enclosing} {current : Option Enclosing}
  {d : Heading} {name : String}

/-- The last declaration that a file remembers under a name. -/
def lastDeclared? (s : Source) (root : Cursor) (name : String) : Option (Cursor × Heading) :=
  (headings s (root.within depthLimit)).reverse.find? fun p => decide (name ∈ p.2.keys)

/-- What is remembered under a name is what the last such declaration declares. -/
theorem id_of_remembered (hfailure : (declarations s root).failure = none) :
    ((remembered (declarations s root).found).get? name).map (·.id) =
      (lastDeclared? s root name).map fun p => p.2.id s := by
  -- Both sides are read off the list of names and identifiers.
  have hread : ∀ {β : Type} (keys : β → List String) (id : β → String) (es : List β),
      (es.reverse.find? fun e => decide (name ∈ keys e)).map id =
        ((es.map fun e => (keys e, id e)).reverse.find? fun e => decide (name ∈ e.1)).map (·.2) := by
    intro β keys id es
    rw [← List.map_reverse, List.find?_map, Option.map_map]
    rfl
  have htable : ((remembered (declarations s root).found).get? name) =
      ((declarations s root).found.reverse.find? fun e => decide (name ∈ e.2)).map (·.1) := by
    rw [remembered, Keyed.ofList_eq_insertAll, Keyed.get?_insertAll]
    exact (Option.or_none).trans (Keyed.lookup_reverse_flatMap (·.2) (·.1) name (declarations s root).found)
  rw [htable, Option.map_map, lastDeclared?, hread (fun p : Cursor × Heading => p.2.keys) (fun p => p.2.id s),
    ← map_found_eq (f := fun e => (e.2, e.1.id)) hfailure fun p e he => Prod.ext he.keys he.id]
  exact hread (fun e : Component × List String => e.2) (fun e => e.1.id) _

/-- Whether a node declares a function or a method. -/
def isFunction (c : Cursor) : Bool :=
  c.kind == "function_declaration" || c.kind == "method_declaration"

/-- In a function its name and receiver are known. -/
theorem exists_of_enterFunction {now : Option Enclosing} (hd : heading? s a = .ok (some d))
    (ha : isFunction a = true) (h : enterFunction s k current a = .ok now) :
    ∃ f, now = some f ∧ f.function = d.name ∧ f.receiver = d.receiver := by
  unfold heading? at hd
  unfold enterFunction at h
  by_cases hfunction : a.kind = "function_declaration"
  · rw [if_pos hfunction] at hd h
    obtain ⟨name?, hname?, hd⟩ := bind_eq_ok.mp hd
    obtain ⟨name, hname, rfl⟩ := Option.map_eq_some_iff.mp (Except.ok.inj hd)
    rw [hname?, eq_some_of_nonEmpty hname] at h
    obtain ⟨entered, hentered, h⟩ := bind_eq_ok.mp h
    cases hentered
    obtain ⟨scope, -, h⟩ := bind_eq_ok.mp h
    cases h
    exact ⟨_, rfl, rfl, rfl⟩
  · have hmethod : a.kind = "method_declaration" := by simpa [isFunction, hfunction] using ha
    rw [if_neg hfunction, if_pos hmethod] at hd h
    obtain ⟨name?, hname?, hd⟩ := bind_eq_ok.mp hd
    obtain ⟨receiver, hreceiver, hd⟩ := bind_eq_ok.mp hd
    obtain ⟨name, hname, rfl⟩ := Option.map_eq_some_iff.mp (Except.ok.inj hd)
    rw [hname?, eq_some_of_nonEmpty hname] at h
    obtain ⟨entered, hentered, h⟩ := bind_eq_ok.mp h
    cases hentered
    obtain ⟨receiver', hreceiver', h⟩ := bind_eq_ok.mp h
    obtain ⟨receiverName, -, h⟩ := bind_eq_ok.mp h
    obtain ⟨scope, -, h⟩ := bind_eq_ok.mp h
    cases h
    exact ⟨_, rfl, rfl, Except.ok.inj (hreceiver'.symm.trans hreceiver)⟩

/-- Another node changes nothing. -/
theorem enterFunction_of_not_isFunction (h : isFunction c = false) : enterFunction s k current c = .ok current := by
  obtain ⟨hfunction, hmethod⟩ : c.kind ≠ "function_declaration" ∧ c.kind ≠ "method_declaration" := by
    simpa [isFunction] using h
  rw [enterFunction, if_neg hfunction, if_neg hmethod]

/-- What is found on the rest of a tour is found on the tour, in the same function if none is entered. -/
theorem exists_rest_of_tour {before rest : List Cursor.Step}
    (h : (relationshipsAlong s k current (before ++ rest)).failure = none) :
    ∃ now, (relationshipsAlong s k now rest).failure = none ∧
      (∀ r ∈ (relationshipsAlong s k now rest).found,
        r ∈ (relationshipsAlong s k current (before ++ rest)).found) ∧
      ((∀ step ∈ before, isFunction step.node = false) → now = current) := by
  induction before generalizing current with
  | nil => exact ⟨current, h, fun r hr => hr, fun _ => rfl⟩
  | cons step before ih =>
    cases step with
    | enter depth c =>
      rw [List.cons_append, relationshipsAlong] at h ⊢
      obtain ⟨entered, hentered, hgiven⟩ := Trail.given_of_failure h
      rw [hgiven] at h ⊢
      obtain ⟨-, hrest, hfound⟩ := Trail.append_of_failure h
      obtain ⟨now, hnow, hsub, hkept⟩ := ih hrest
      refine ⟨now, hnow, fun r hr => ?_, fun hsteps => ?_⟩
      · rw [hfound]
        exact List.mem_append_right _ (hsub r hr)
      · have hc : isFunction c = false := hsteps _ List.mem_cons_self
        rw [enterFunction_of_not_isFunction hc] at hentered
        rw [hkept fun step hstep => hsteps step (List.mem_cons_of_mem _ hstep), Except.ok.inj hentered]
    | leave depth c =>
      rw [List.cons_append, relationshipsAlong] at h ⊢
      obtain ⟨now, hnow, hsub, hkept⟩ := ih h
      refine ⟨now, hnow, hsub, fun hsteps => ?_⟩
      have hc : isFunction c = false := hsteps _ List.mem_cons_self
      obtain ⟨hfunction, hmethod⟩ : c.kind ≠ "function_declaration" ∧ c.kind ≠ "method_declaration" := by
        simpa [isFunction] using hc
      rw [hkept fun step hstep => hsteps step (List.mem_cons_of_mem _ hstep)]
      simp [hfunction, hmethod]

/-- What a tour finds at a node inside a function is found. -/
theorem subset_of_tour (hroot : root.parent = none) (hc : c ∈ root.within depthLimit) (ha : a ∈ c.ancestors)
    (hfailure : (relationshipsAlong s k none (root.tour depthLimit)).failure = none)
    (hd : heading? s a = .ok (some d)) (hfunction : isFunction a = true) (hnode : isFunction c = false)
    (hbetween : ∀ b, Cursor.Between a b c → isFunction b = false) :
    ∃ f : Enclosing, f.function = d.name ∧ f.receiver = d.receiver ∧
      ∀ r ∈ (relationshipsAt s k (some f) c).found,
        r ∈ (relationshipsAlong s k none (root.tour depthLimit)).found := by
  have hne : c ≠ a := by
    rintro rfl
    rw [hfunction] at hnode
    exact absurd hnode.symm Bool.false_ne_true
  obtain ⟨depth, depth', before, inside, after, htour, hsteps⟩ := Cursor.exists_tour_between hroot hc ha hne
  rw [htour] at hfailure ⊢
  obtain ⟨outer, houter, hsub, -⟩ := exists_rest_of_tour hfailure
  -- The tour enters the function.
  rw [relationshipsAlong] at houter hsub
  obtain ⟨entered, hentered, hgiven⟩ := Trail.given_of_failure houter
  rw [hgiven] at houter hsub
  obtain ⟨f, rfl, hname, hreceiver⟩ := exists_of_enterFunction hd hfunction hentered
  obtain ⟨-, hrest, hfound⟩ := Trail.append_of_failure houter
  -- It stays there up to the node.
  obtain ⟨now, hnow, hsub', hkept⟩ := exists_rest_of_tour hrest
  obtain rfl := hkept fun step hstep => hbetween _ (hsteps step hstep)
  refine ⟨f, hname, hreceiver, fun r hr => hsub r ?_⟩
  rw [hfound]
  refine List.mem_append_right _ (hsub' r ?_)
  rw [relationshipsAlong, enterFunction_of_not_isFunction hnode]
  exact (Trail.found_append_prefix _ _).subset hr

/-- A direct call of what is no built-in function relates the function around it with what is remembered. -/
theorem callAt_direct (hcallee : callee ∈ c.children.head?) (hkind : callee.kind = "identifier")
    (hname : s.text callee = .ok name) (hbuiltin : isBuiltin name = false) {g : Component}
    (hg : k.table.get? name = some g) :
    callAt s k f c = .ok [{ caller := componentId s f.function f.receiver, callee := g.id,
                            line := some (s.startLine c), resolved := true }] := by
  obtain ⟨rest, hparts⟩ : ∃ rest, c.children = callee :: rest := by
    cases hparts : c.children with
    | nil =>
      rw [hparts] at hcallee
      cases hcallee
    | cons first rest =>
      rw [hparts] at hcallee
      exact ⟨rest, by rw [Option.some.inj hcallee]⟩
  rw [callAt, hparts]
  simp only [calleeOf, hkind, if_true, hname, hbuiltin, hg, bind, Except.bind, Bool.false_eq_true, if_false,
    Option.isSome_some]

/-- A function at the top of a file is remembered under its name, unless a later declaration is. -/
theorem exists_lastDeclared? {g : Cursor} (hg : g ∈ root.children) (hkind : g.kind = "function_declaration")
    (hname : s.text? (g.child? "identifier") = .ok (some name)) (hne : name ≠ "") :
    ∃ m e, lastDeclared? s root name = some (m, e) ∧ name ∈ e.keys := by
  have hheading := heading?_function hkind hname hne
  have hmem : (g, ⟨"function", name, none⟩) ∈ headings s (root.within depthLimit) :=
    List.mem_filterMap.mpr ⟨g, Cursor.mem_within_of_mem_children (by decide) hg, by rw [hheading]; rfl⟩
  have hfound : (lastDeclared? s root name).isSome = true :=
    List.find?_isSome.mpr ⟨_, List.mem_reverse.mpr hmem, decide_eq_true List.mem_cons_self⟩
  obtain ⟨⟨m, e⟩, hlast⟩ := Option.isSome_iff_exists.mp hfound
  have hkeys : decide (name ∈ e.keys) = true :=
    List.find?_some (p := fun p : Cursor × Heading => decide (name ∈ p.2.keys)) hlast
  exact ⟨m, e, hlast, of_decide_eq_true hkeys⟩

/-- A key without a dot is the name. -/
theorem name_of_mem_keys {e : Heading} (h : name ∈ e.keys) (hdot : '.' ∉ name.toList) : e.name = name := by
  unfold Heading.keys at h
  split at h
  · rcases List.mem_cons.mp h with heq | h
    · exact heq.symm
    · rw [List.mem_singleton.mp h] at hdot
      simp at hdot
  · exact (List.mem_singleton.mp h).symm

/-- A declaration has the identifier of a function with its name exactly if it has no receiver. -/
theorem id_eq_iff_receiver (e : Heading) : e.id s = componentId s e.name none ↔ e.receiver = none := by
  constructor
  · intro h
    unfold Heading.id at h
    cases hreceiver : e.receiver with
    | none => rfl
    | some r =>
      rw [hreceiver] at h
      have hlength := congrArg (fun id => id.toList.length) h
      simp only [componentId, qualify, String.toList_append, List.length_append] at hlength
      split at hlength
      · simp at hlength
      · simp at hlength
        omega
  · intro h
    rw [Heading.id, h]

/-- A direct call of a function is related to the last declaration that is remembered under its name, which
has the identifier of the function exactly if it is no method with a receiver type. -/
theorem direct_call_resolved_to_last (tree : Tree) (h : Readable s (Cursor.ofTree tree)) :
    ∀ g ∈ (Cursor.ofTree tree).children, g.kind = "function_declaration" →
    ∀ name, s.text? (g.child? "identifier") = .ok (some name) → isBuiltin name = false →
    ∀ c ∈ (Cursor.ofTree tree).within depthLimit, c.kind = "call_expression" →
    ∀ callee ∈ c.children.head?, callee.kind = "identifier" → s.text callee = .ok name →
    ∀ a ∈ c.ancestors, isFunction a = true → (∀ b, Cursor.Between a b c → isFunction b = false) →
    ∀ d, heading? s a = .ok (some d) →
      ∃ m e, lastDeclared? s (Cursor.ofTree tree) name = some (m, e) ∧
        { caller := d.id s, callee := e.id s, line := some (s.startLine c), resolved := true } ∈
          (findings s (Cursor.ofTree tree)).findings.relationships ∧
        ('.' ∉ name.toList → (e.id s = componentId s name none ↔ e.receiver = none)) := by
  intro g hg hkind name hname hbuiltin c hc hcall callee hcallee hidentifier htext a ha hfunction hbetween d hd
  have hne : name ≠ "" := by
    rintro rfl
    exact absurd hbuiltin (by decide)
  have hnode : isFunction c = false := by
    rw [isFunction, hcall]
    rfl
  obtain ⟨m, e, hlast, hkeys⟩ := exists_lastDeclared? hg hkind hname hne
  obtain ⟨k, htable, -, hrelationships, hfailure⟩ := exists_findings rfl h
  obtain ⟨target, htarget, hid⟩ : ∃ target, k.table.get? name = some target ∧ target.id = e.id s := by
    have hread : (k.table.get? name).map (·.id) = some (e.id s) := by
      rw [htable, id_of_remembered (failure_declarations h), hlast]
      rfl
    exact Option.map_eq_some_iff.mp hread
  obtain ⟨f, hf, hreceiver, hfound⟩ := subset_of_tour rfl hc ha hfailure hd hfunction hnode hbetween
  refine ⟨m, e, hlast, ?_, fun hdot => ?_⟩
  · rw [hrelationships]
    apply hfound
    have hnamed : f.function ≠ "" := by
      rw [hf]
      exact name_ne_of_heading? hd
    simp only [relationshipsAt, hcall, if_true, hnamed, if_false,
      callAt_direct hcallee hidentifier htext hbuiltin htarget]
    rw [hf, hreceiver, hid]
    exact List.mem_cons_self
  · rw [← name_of_mem_keys hkeys hdot]
    exact id_eq_iff_receiver e

/-- The source of a file where a function with the name of a method follows it and is called. -/
def functionLast : Source :=
  Source.of "package m\n\nfunc (t T) f() \x7b\x7d\n\nfunc f() \x7b\x7d\n\nfunc g() \x7b f() \x7d\n"
    "/r/m.go" (some "/r")

/-- The tree of that file. -/
def functionLastTree : Tree :=
  .node "source_file" 0 60 [
    .node "package_clause" 0 9 [.sign "package" 0 7, .leaf "package_identifier" 8 9],
    .node "method_declaration" 11 28 [
      .sign "func" 11 15,
      .node "parameter_list" 16 21 [
        .node "parameter_declaration" 17 20 [.leaf "identifier" 17 18, .leaf "type_identifier" 19 20]],
      .leaf "field_identifier" 22 23, .leaf "parameter_list" 23 25, .leaf "block" 26 28],
    .node "function_declaration" 30 41 [
      .sign "func" 30 34, .leaf "identifier" 35 36, .leaf "parameter_list" 36 38, .leaf "block" 39 41],
    .node "function_declaration" 43 59 [
      .sign "func" 43 47, .leaf "identifier" 48 49, .leaf "parameter_list" 49 51,
      .node "block" 52 59 [.node "call_expression" 54 57 [.leaf "identifier" 54 55, .leaf "argument_list" 55 57]]]]

/-- The call is related to the function, which comes after the method. -/
theorem later_function_called :
    Readable functionLast (Cursor.ofTree functionLastTree) ∧
    { caller := "m.g", callee := "m.f", line := some 7, resolved := true } ∈
      (findings functionLast (Cursor.ofTree functionLastTree)).findings.relationships := by
  have hread : Readable functionLast (Cursor.ofTree functionLastTree) := by decide +kernel
  obtain ⟨g, hg, hkind, hname⟩ : ∃ g ∈ (Cursor.ofTree functionLastTree).children,
      g.kind = "function_declaration" ∧
      (functionLast.text? (g.child? "identifier")).toOption = some (some "f") := by
    decide +kernel
  obtain ⟨c, hc, hcall, hline, callee, hcallee, hidentifier, htext, a, ha, hfunction, hbelow, hd⟩ :
      ∃ c ∈ (Cursor.ofTree functionLastTree).within depthLimit, c.kind = "call_expression" ∧
        functionLast.startLine c = 7 ∧
        ∃ callee ∈ c.children.head?, callee.kind = "identifier" ∧
          (functionLast.text callee).toOption = some "f" ∧
          ∃ a ∈ c.ancestors, isFunction a = true ∧
            (∀ b ∈ a.preorder.tail, isFunction b = false) ∧
            (heading? functionLast a).toOption = some (some ⟨"function", "g", none⟩) := by
    decide +kernel
  have hbetween : ∀ b, Cursor.Between a b c → isFunction b = false := by
    rintro b ⟨front, back, hpreorder, hb⟩
    refine hbelow b ?_
    rw [hpreorder]
    exact List.mem_append_left _ hb
  obtain ⟨m, e, hlast, hrelated, -⟩ := direct_call_resolved_to_last functionLastTree hread g hg hkind "f"
    (eq_ok_of_toOption hname) (by decide) c hc hcall callee hcallee hidentifier (eq_ok_of_toOption htext)
    a ha hfunction hbetween _ (eq_ok_of_toOption hd)
  have hcalled : (lastDeclared? functionLast (Cursor.ofTree functionLastTree) "f").map
      (fun p => p.2.id functionLast) = some "m.f" := by
    decide +kernel
  have hcaller : Heading.id functionLast ⟨"function", "g", none⟩ = "m.g" := by decide +kernel
  have hcallee' : e.id functionLast = "m.f" := by
    rw [hlast] at hcalled
    exact Option.some.inj hcalled
  rw [hline, hcaller, hcallee'] at hrelated
  exact ⟨hread, hrelated⟩

/-- The source of a file where a method with the name of a function follows it. -/
def methodLast : Source :=
  Source.of ("package m\n\nfunc f() \x7b\x7d\n\nfunc g() \x7b f() \x7d\n\n" ++
    "type T struct\x7b\x7d\n\nfunc (t T) f() \x7b\x7d\n") "/r/m.go" (some "/r")

/-- The tree of that file. -/
def methodLastTree : Tree :=
  .node "source_file" 0 77 [
    .node "package_clause" 0 9 [.sign "package" 0 7, .leaf "package_identifier" 8 9],
    .node "function_declaration" 11 22 [
      .sign "func" 11 15, .leaf "identifier" 16 17, .leaf "parameter_list" 17 19, .leaf "block" 20 22],
    .node "function_declaration" 24 40 [
      .sign "func" 24 28, .leaf "identifier" 29 30, .leaf "parameter_list" 30 32,
      .node "block" 33 40 [.node "expression_statement" 35 38 [
        .node "call_expression" 35 38 [.leaf "identifier" 35 36, .leaf "argument_list" 36 38]]]],
    .node "type_declaration" 42 57 [
      .sign "type" 42 46, .node "type_spec" 47 57 [.leaf "type_identifier" 47 48, .leaf "struct_type" 49 57]],
    .node "method_declaration" 59 76 [
      .sign "func" 59 63,
      .node "parameter_list" 64 69 [
        .node "parameter_declaration" 65 68 [.leaf "identifier" 65 66, .leaf "type_identifier" 67 68]],
      .leaf "field_identifier" 70 71, .leaf "parameter_list" 71 73, .leaf "block" 74 76]]

/-- The call of the function is related to the method, and nothing is related to the function. -/
theorem later_method_called_instead :
    Readable methodLast (Cursor.ofTree methodLastTree) ∧
    (∃ g ∈ (Cursor.ofTree methodLastTree).children, g.kind = "function_declaration" ∧
      (methodLast.text? (g.child? "identifier")).toOption = some (some "f")) ∧
    isBuiltin "f" = false ∧
    (findings methodLast (Cursor.ofTree methodLastTree)).findings.relationships =
      [{ caller := "m.g", callee := "m.T.f", line := some 5, resolved := true }] := by
  decide +kernel

end RepoAtlas.Extract.Go
