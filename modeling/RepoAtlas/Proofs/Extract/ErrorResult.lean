import RepoAtlas.Proofs.Extract.GoReadable

/-!
# Whether a function is known to return an error

Results are looked for behind the last parameter list. A result in parentheses is one itself, so a function is
known to return an error only if its result is a single type.
-/

namespace RepoAtlas.Extract.Go

open Syntax

variable {s : Source} {root c r : Cursor} {k : Component} {kind name : String} {receiver : Option String}

/-- The kind of the node that names a function or a method. -/
def nameKind? (c : Cursor) : Option String :=
  if c.kind = "function_declaration" then some "identifier"
  else if c.kind = "method_declaration" then some "field_identifier"
  else none

/-- The kinds of single result types that are seen. -/
def seenResults : List String :=
  ["type_identifier", "qualified_type", "pointer_type", "slice_type", "map_type"]

/-- The types in a result: those of the declarations in parentheses, or else the result itself. -/
def resultTypes (r : Cursor) : List Cursor :=
  if r.kind = "parameter_list" then
    (r.children.filter (·.kind = "parameter_declaration")).flatMap fun d =>
      d.children.filter fun t => t.kind != "identifier" && t.kind != ","
  else [r]

/-- A function whose last parts are a parameter list, perhaps a result, and perhaps a body. -/
def EndsIn (c : Cursor) (result : Option Cursor) : Prop :=
  ∃ front parameters body, c.children = front ++ parameters :: (result.toList ++ Option.toList body) ∧
    parameters.kind = "parameter_list" ∧ (∀ b ∈ body, b.kind = "block") ∧ ∀ r ∈ result, r.kind ≠ "block"

/-- The results of a function are what stands between its last parameter list and its body. -/
theorem resultNodes_eq {front back : List Cursor} {l : Cursor} (hparts : c.children = front ++ l :: back)
    (hl : l.kind = "parameter_list") (hback : ∀ d ∈ back, d.kind ≠ "parameter_list") :
    resultNodes c = back.takeWhile (·.kind != "block") := by
  have hsome : (c.child? "parameter_list").isSome = true := by
    rw [Cursor.child?, List.find?_isSome]
    exact ⟨l, by simp [hparts], by simp [hl]⟩
  have hlast : (c.children.reverse.takeWhile (·.kind != "parameter_list")).reverse = back := by
    have hall : ∀ d ∈ back.reverse, (d.kind != "parameter_list") = true := by simpa using hback
    rw [hparts, List.reverse_append, List.reverse_cons, List.append_assoc, List.takeWhile_append_of_pos hall]
    simp [hl]
  rw [resultNodes, if_pos hsome, hlast]

/-- The only result that is found is a single type. -/
theorem resultNodes_of_endsIn {result : Option Cursor} (h : EndsIn c result) :
    resultNodes c = result.toList.filter (·.kind != "parameter_list") := by
  obtain ⟨front, parameters, body, hparts, hparameters, hbody, hresult⟩ := h
  have hnone : ∀ d ∈ body.toList, d.kind ≠ "parameter_list" := by
    intro d hd
    rw [hbody d (Option.mem_toList.mp hd)]
    decide
  have hstop : body.toList.takeWhile (·.kind != "block") = [] := by
    cases body with
    | none => rfl
    | some b => simp [hbody b rfl]
  cases result with
  | none => rw [resultNodes_eq hparts hparameters (by simpa using hnone)]; exact hstop
  | some r =>
    by_cases hr : r.kind = "parameter_list"
    · -- The parentheses are the last parameter list, and nothing but the body stands behind them.
      have hparts' : c.children = (front ++ [parameters]) ++ r :: body.toList := by simp [hparts]
      rw [resultNodes_eq hparts' hr hnone, hstop]
      simp [hr]
    · have hback : ∀ d ∈ (some r).toList ++ body.toList, d.kind ≠ "parameter_list" := by
        simpa [hr] using hnone
      rw [resultNodes_eq hparts hparameters hback]
      have hblock : r.kind ≠ "block" := hresult r rfl
      simp [hr, hblock, hstop]

/-- A single result is no parameter list. -/
theorem ne_parameter_list_of_mem_seenResults (h : kind ∈ seenResults) : kind ≠ "parameter_list" := by
  rintro rfl
  exact absurd h (by decide)

/-- Of the results of a function the type is known that is a single one of a kind that is seen. -/
theorem mem_returnTypes_iff {result : Option Cursor} {returns : List String} {type : String} (h : EndsIn c result)
    (hreturns : returnTypes s c = .ok returns) :
    type ∈ returns ↔ ∃ r ∈ result, r.kind ∈ seenResults ∧ ∃ text, s.text r = .ok text ∧ baseType text = type := by
  obtain ⟨read, hread, hreturns⟩ := bind_eq_ok.mp hreturns
  cases hreturns
  -- A result in parentheses is dropped twice: it is not behind the last list, and its kind is not seen.
  have hnodes : (resultNodes c).filter (fun d => seenResults.contains d.kind) =
      result.toList.filter fun d => seenResults.contains d.kind := by
    rw [resultNodes_of_endsIn h, List.filter_filter]
    refine List.filter_congr fun d _ => ?_
    by_cases hd : d.kind ∈ seenResults
    · simp [hd, ne_parameter_list_of_mem_seenResults hd]
    · simp [hd]
  rw [show ["type_identifier", "qualified_type", "pointer_type", "slice_type", "map_type"] = seenResults from rfl,
    hnodes] at hread
  cases result with
  | none =>
    cases hread
    simp
  | some r =>
    by_cases hr : r.kind ∈ seenResults
    · rw [Option.toList_some, List.filter_cons_of_pos (by simpa using hr), List.filter_nil] at hread
      cases htext : s.text r with
      | error e => exact absurd hread (by simp [texts, collect, htext, bind, Except.bind])
      | ok text =>
        obtain rfl : [text] = read := by
          simpa [texts, collect, htext, bind, Except.bind, pure, Except.pure] using hread
        simp [hr, htext, eq_comm]
    · rw [Option.toList_some, List.filter_cons_of_neg (by simpa using hr), List.filter_nil] at hread
      cases hread
      simp [hr]

/-- A function returns an error if one of its known result types is one. -/
theorem exists_returnTypes_of_functionComponent (h : functionComponent s c kind name receiver = .ok k) :
    ∃ returns, returnTypes s c = .ok returns ∧
      (k.returnsError = true ↔ ∃ type ∈ returns, baseType type = "error") := by
  simp only [functionComponent, bind_eq_ok] at h
  obtain ⟨parameters, -, returns, hreturns, h⟩ := h
  refine ⟨returns, hreturns, ?_⟩
  have hany : (returns.any fun t => baseType t = "error") = true ↔ ∃ t ∈ returns, baseType t = "error" := by
    simp
  generalize componentId s name receiver = id at h
  split at h
  · have hflags := congrArg Component.returnsError (unflagged_of_noteBodies h)
    rw [← hany]
    exact Eq.congr_left hflags
  · cases h
    exact hany

/-- A function with a name is declared as its component. -/
theorem exists_declaredAt_function {n : Cursor} (h : Readable s c) (hkind : nameKind? c = some kind)
    (hn : c.child? kind = some n) (hname : s.text n = .ok name) (hne : name ≠ "") :
    ∃ k names what receiver, declaredAt s c = .ok [(k, names)] ∧ k.name = name ∧
      functionComponent s c what name receiver = .ok k := by
  have htext : s.text? (c.child? kind) = .ok (some name) := by
    rw [hn, Source.text?, hname]
    rfl
  obtain ⟨d, hd, rfl, htype⟩ :
      ∃ d, heading? s c = .ok (some d) ∧ d.name = name ∧ c.kind ≠ "type_declaration" := by
    unfold nameKind? at hkind
    split at hkind
    · rename_i hfunction
      cases hkind
      exact ⟨_, heading?_function hfunction htext hne, rfl, by rw [hfunction]; decide⟩
    split at hkind
    · rename_i hmethod
      cases hkind
      obtain ⟨receiver, hreceiver⟩ := exists_of_isOk (isOk_receiverType h)
      exact ⟨_, heading?_method hmethod htext hne hreceiver, rfl, by rw [hmethod]; decide⟩
    · cases hkind
  obtain ⟨k, hk⟩ := exists_of_isOk (isOk_headedComponent (g := d) h)
  refine ⟨k, d.keys, d.kind, d.receiver, ?_, (heads_of_headedComponent hd hk).name, ?_⟩
  · rw [declaredAt_eq, hd]
    change (headedComponent s c d).map _ = _
    rw [hk]
    rfl
  · rwa [headedComponent, if_neg htype] at hk

/-- The base type of `error` is itself. -/
theorem baseType_error : baseType "error" = "error" := by
  decide +kernel

/-- A function is known to return an error exactly if its result is a single type of a kind that is seen and
is an error. -/
theorem returnsError_iff_seen_result (tree : Tree) (h : Readable s (Cursor.ofTree tree))
    (hc : c ∈ (Cursor.ofTree tree).within depthLimit) {n : Cursor} {result : Option Cursor}
    (hkind : nameKind? c = some kind) (hn : c.child? kind = some n) (hname : s.text n = .ok name)
    (hne : name ≠ "") (hresult : EndsIn c result) :
    ∃ k names, declaredAt s c = .ok [(k, names)] ∧
      k ∈ (findings s (Cursor.ofTree tree)).findings.components ∧ k.name = name ∧
      (k.returnsError = true ↔ ∃ r ∈ result, r.kind ∈ seenResults ∧
        ∃ text, s.text r = .ok text ∧ baseType (baseType text) = "error") ∧
      ∀ r ∈ result, ∀ t ∈ resultTypes r, ∀ text, s.text t = .ok text → baseType text = "error" →
        (k.returnsError = true ↔ r.kind ∈ seenResults) := by
  obtain ⟨k, names, what, receiver, hdeclared, hk', hk⟩ :=
    exists_declaredAt_function (readable_of_mem_within h hc) hkind hn hname hne
  obtain ⟨returns, hreturns, herror⟩ := exists_returnTypes_of_functionComponent hk
  have hsingle : k.returnsError = true ↔ ∃ r ∈ result, r.kind ∈ seenResults ∧
      ∃ text, s.text r = .ok text ∧ baseType (baseType text) = "error" := by
    rw [herror]
    constructor
    · rintro ⟨type, htype, heq⟩
      obtain ⟨r, hr, hseen, text, htext, rfl⟩ := (mem_returnTypes_iff hresult hreturns).mp htype
      exact ⟨r, hr, hseen, text, htext, heq⟩
    · rintro ⟨r, hr, hseen, text, htext, heq⟩
      exact ⟨_, (mem_returnTypes_iff hresult hreturns).mpr ⟨r, hr, hseen, text, htext, rfl⟩, heq⟩
  refine ⟨k, names, hdeclared, ?_, hk', hsingle,
    fun r hr t ht text htext heq => ⟨fun htrue => ?_, fun hseen => ?_⟩⟩
  · obtain ⟨-, -, hcomponents, -, -⟩ := exists_findings rfl h
    obtain ⟨found, hfound, hsub⟩ := exists_declaredAt (failure_declarations h) hc
    obtain rfl := Except.ok.inj (hdeclared.symm.trans hfound)
    rw [hcomponents]
    exact List.mem_map_of_mem (f := Prod.fst) (hsub (k, names) (List.mem_singleton_self _))
  · obtain ⟨r', hr', hseen, -⟩ := hsingle.mp htrue
    exact Option.mem_unique hr hr' ▸ hseen
  · rw [resultTypes, if_neg (ne_parameter_list_of_mem_seenResults hseen), List.mem_singleton] at ht
    refine hsingle.mpr ⟨r, hr, hseen, text, ht ▸ htext, ?_⟩
    rw [heq, baseType_error]

/-- The source of a file with a function that returns a number and an error, and one that returns an error. -/
def fallible : Source :=
  Source.of ("package m\n\nfunc f() (int, error) \x7b return 0, nil \x7d\n\n" ++
    "func g() error \x7b return nil \x7d\n") "/r/m.go" (some "/r")

/-- The tree of that file. -/
def fallibleTree : Tree :=
  .node "source_file" 0 82 [
    .node "package_clause" 0 9 [.sign "package" 0 7, .leaf "package_identifier" 8 9],
    .node "function_declaration" 11 50 [
      .sign "func" 11 15, .leaf "identifier" 16 17, .round "parameter_list" 17 19 [],
      .round "parameter_list" 20 32 [
        .node "parameter_declaration" 21 24 [.leaf "type_identifier" 21 24], .sign "," 24 25,
        .node "parameter_declaration" 26 31 [.leaf "type_identifier" 26 31]],
      .curly "block" 33 50 [.node "return_statement" 35 48 [
        .sign "return" 35 41,
        .node "expression_list" 42 48 [.leaf "int_literal" 42 43, .sign "," 43 44, .leaf "nil" 45 48]]]],
    .node "function_declaration" 52 81 [
      .sign "func" 52 56, .leaf "identifier" 57 58, .round "parameter_list" 58 60 [],
      .leaf "type_identifier" 61 66,
      .curly "block" 67 81 [
        .node "return_statement" 69 79 [.sign "return" 69 75, .node "expression_list" 76 79 [.leaf "nil" 76 79]]]]]

/-- The function whose only result is an error is known to return one. -/
theorem single_error_seen :
    Readable fallible (Cursor.ofTree fallibleTree) ∧
    ∃ k ∈ (findings fallible (Cursor.ofTree fallibleTree)).findings.components,
      k.name = "g" ∧ k.returnsError = true := by
  have hread : Readable fallible (Cursor.ofTree fallibleTree) := by decide +kernel
  obtain ⟨c, n, r, hc, hkind, hn, hname, hr, hseen, htext, hresult⟩ :
      ∃ c n r, c ∈ (Cursor.ofTree fallibleTree).children ∧ nameKind? c = some "identifier" ∧
        c.child? "identifier" = some n ∧ (fallible.text n).toOption = some "g" ∧
        r.kind ≠ "parameter_list" ∧ r.kind ∈ seenResults ∧ (fallible.text r).toOption = some "error" ∧
        EndsIn c (some r) := by
    refine ⟨_, _, _, List.mem_cons_of_mem _ (List.mem_cons_of_mem _ List.mem_cons_self), rfl, rfl, ?_, ?_, ?_, ?_,
      [_, _], _, some _, rfl, rfl, ?_, ?_⟩
    all_goals decide +kernel
  obtain ⟨k, names, -, hk, hk', -, herror⟩ := returnsError_iff_seen_result fallibleTree hread
    (Cursor.mem_within_of_mem_children (by decide) hc) hkind hn (eq_ok_of_toOption hname) (by decide) hresult
  have htype : r ∈ resultTypes r := by
    rw [resultTypes, if_neg hr]
    exact List.mem_singleton_self r
  exact ⟨hread, k, hk, hk', (herror r rfl r htype "error" (eq_ok_of_toOption htext) baseType_error).mpr hseen⟩

/-- The function that returns a number and an error is not known to return an error. -/
theorem error_in_parentheses_missed :
    Readable fallible (Cursor.ofTree fallibleTree) ∧
    (∃ c ∈ (Cursor.ofTree fallibleTree).children, ∃ n r, nameKind? c = some "identifier" ∧
      c.child? "identifier" = some n ∧ (fallible.text n).toOption = some "f" ∧ EndsIn c (some r) ∧
      ∃ t ∈ resultTypes r, (fallible.text t).toOption.map baseType = some "error") ∧
    ∃ k ∈ (findings fallible (Cursor.ofTree fallibleTree)).findings.components,
      k.name = "f" ∧ k.returnsError = false := by
  refine ⟨by decide +kernel, ⟨_, List.mem_cons_of_mem _ List.mem_cons_self, _, _, rfl, rfl, ?_,
    ⟨[_, _], _, some _, rfl, rfl, ?_, ?_⟩, ?_⟩, ?_⟩
  all_goals decide +kernel

end RepoAtlas.Extract.Go
