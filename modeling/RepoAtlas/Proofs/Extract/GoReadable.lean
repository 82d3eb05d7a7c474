import RepoAtlas.Extract.Go
import RepoAtlas.Proofs.Extract.Heading
import RepoAtlas.Proofs.Extract.Readable

/-!
# Analyses of readable Go files

The analysis of a Go file reads texts of nodes of its tree only. In a readable tree nothing fails: all
declarations, all facts about types and all relationships are found.
-/

namespace RepoAtlas.Extract.Go

open Syntax

variable {s : Source} {root c d : Cursor} {k : Context} {f : Enclosing} {nodes : List Cursor} {scope : Scope}
  {current : Option Enclosing}

/-- The texts of readable nodes are read. -/
theorem isOk_texts (h : ∀ c ∈ nodes, Readable s c) : (texts s nodes).isOk = true :=
  isOk_collect_text h

/-- So is the last of them. -/
theorem isOk_lastText (h : ∀ c ∈ nodes, Readable s c) : (lastText s nodes).isOk = true :=
  isOk_bind (isOk_texts h) fun _ _ => rfl

/-- Imports are read. -/
theorem isOk_imports (h : Readable s root) : (imports s root).isOk = true := by
  refine isOk_bind (isOk_collect fun c hc => ?_) fun _ _ => rfl
  have hc : Readable s c := h.below hc
  refine isOk_bind ?_ fun _ _ => ?_
  · unfold packageAt
    split
    · exact isOk_bind (isOk_text? fun d hd => hc.child? hd) fun _ _ => rfl
    · rfl
  · unfold importAt
    split
    · rfl
    split
    · rfl
    · rename_i spec hspec
      have hspec : Readable s spec := hc.child? hspec
      refine isOk_bind (isOk_lastText (hspec.filtered _)) fun _ _ => ?_
      refine isOk_bind (isOk_lastText (hspec.filtered _)) fun _ _ => ?_
      split <;> rfl

/-- The type of a receiver is read. -/
theorem isOk_receiverType (h : Readable s c) : (receiverType s c).isOk = true := by
  unfold receiverType
  split
  · rfl
  · rename_i l hl
    refine isOk_firstOf fun p hp => ?_
    have hp : Readable s p := (h.child? hl).filtered _ p hp
    refine isOk_bind (isOk_firstOf fun d hd => ?_) fun found _ => ?_
    · have hd : Readable s d := hp.part (List.mem_reverse.mp (List.mem_filter.mp hd).1)
      exact isOk_bind hd.text fun _ _ => rfl
    · split
      · rfl
      · exact isOk_bind hp.text fun _ _ => rfl

/-- Its variable is read. -/
theorem isOk_receiverVariable (h : Readable s c) : (receiverVariable s c).isOk = true := by
  unfold receiverVariable
  split
  · rfl
  · rename_i l hl
    refine isOk_text? fun d hd => ?_
    obtain ⟨p, hp, hd⟩ := List.mem_flatMap.mp (List.mem_of_find?_eq_some hd)
    exact ((h.child? hl).filtered _ p hp).part hd

/-- The parts of a parameter are read. -/
theorem isOk_parameterParts {kinds : List String} (h : Readable s c) : (parameterParts s kinds c).isOk = true := by
  refine isOk_bind (isOk_texts (h.filtered _)) fun _ _ => ?_
  exact isOk_bind (isOk_lastText (h.filtered _)) fun _ _ => rfl

/-- What follows a receiver are parts. -/
theorem afterReceiver_subset (hd : d ∈ afterReceiver c) : d ∈ c.children := by
  unfold afterReceiver at hd
  split at hd
  · exact (List.dropWhile_sublist _).subset (List.mem_of_mem_drop hd)
  · exact hd

/-- Parameters are read. -/
theorem isOk_parameters (h : Readable s c) : (parameters s c).isOk = true := by
  refine isOk_bind (isOk_collect fun d hd => ?_) fun _ _ => rfl
  obtain ⟨l, hl, hd⟩ := List.mem_flatMap.mp hd
  have hl : Readable s l := h.part (afterReceiver_subset (List.mem_filter.mp hl).1)
  exact isOk_bind (isOk_parameterParts (hl.filtered _ d hd)) fun _ _ => rfl

/-- Results are read. -/
theorem isOk_returnTypes (h : Readable s c) : (returnTypes s c).isOk = true := by
  refine isOk_bind (isOk_texts fun d hd => ?_) fun _ _ => rfl
  have hd := (List.mem_filter.mp hd).1
  unfold resultNodes at hd
  split at hd
  · have hd := (List.takeWhile_sublist _).subset hd
    have hd := (List.takeWhile_sublist _).subset (List.mem_reverse.mp hd)
    exact h.part (List.mem_reverse.mp hd)
  · cases hd

/-- What a body tells is read. -/
theorem isOk_noteBody {g : Component} (h : Readable s c) : (noteBody s g c).isOk = true := by
  unfold noteBody
  split
  · rfl
  split
  · rfl
  split
  · rfl
  split
  · rfl
  split
  · split
    · rename_i callee rest hparts
      split
      · have hcallee : Readable s callee := h.part (hparts ▸ List.mem_cons_self)
        exact isOk_bind hcallee.text fun _ _ => rfl
      · rfl
    · rfl
  · rfl

/-- So is what several tell. -/
theorem isOk_noteBodies {g : Component} (h : ∀ c ∈ nodes, Readable s c) : (noteBodies s g nodes).isOk = true := by
  induction nodes generalizing g with
  | nil => rfl
  | cons c nodes ih =>
    refine isOk_bind (isOk_noteBody (h c List.mem_cons_self)) fun _ _ => ?_
    exact ih fun d hd => h d (List.mem_cons_of_mem c hd)

/-- What is within a limit is readable. -/
theorem readable_of_mem_within {limit : Nat} (h : Readable s c) (hd : d ∈ c.within limit) : Readable s d :=
  h.below (Cursor.mem_preorder_of_mem_within hd)

/-- The component of a heading is read. -/
theorem isOk_headedComponent {g : Heading} (h : Readable s c) : (headedComponent s c g).isOk = true := by
  unfold headedComponent
  split
  · rfl
  · refine isOk_bind (isOk_parameters h) fun _ _ => ?_
    refine isOk_bind (isOk_returnTypes h) fun _ _ => ?_
    cases hbody : c.child? "block" with
    | none => rfl
    | some body => exact isOk_noteBodies fun d hd => readable_of_mem_within (h.child? hbody) hd

/-- The heading of a specification is read. -/
theorem isOk_specHeading? (h : Readable s c) : (specHeading? s c).isOk = true := by
  refine isOk_bind (isOk_text? fun d hd => h.child? hd) fun _ _ => ?_
  split <;> rfl

/-- Headings are read. -/
theorem isOk_heading? (h : Readable s c) : (heading? s c).isOk = true := by
  unfold heading?
  split
  · exact isOk_bind (isOk_text? fun d hd => h.child? hd) fun _ _ => rfl
  split
  · refine isOk_bind (isOk_text? fun d hd => h.child? hd) fun _ _ => ?_
    exact isOk_bind (isOk_receiverType h) fun _ _ => rfl
  split
  · split
    · rfl
    · rename_i spec hspec
      exact isOk_specHeading? (h.child? hspec)
  · rfl

/-- Declarations at a node are read. -/
theorem isOk_declaredAt (h : Readable s c) : (declaredAt s c).isOk = true := by
  rw [declaredAt_eq]
  refine isOk_bind (isOk_heading? h) fun d? _ => ?_
  cases d? with
  | none => rfl
  | some d => exact isOk_map (isOk_headedComponent h)

/-- The declarations of a file are read without failure. -/
theorem failure_declarations (h : Readable s root) : (declarations s root).failure = none :=
  Trail.failure_each fun _ hc => Trail.failure_ofExcept (isOk_declaredAt (readable_of_mem_within h hc))

/-- Names and bodies of specifications are readable. -/
theorem readable_of_specifications {kind : String} {name body : Cursor} (h : Readable s c)
    (hmem : (name, body) ∈ specifications c kind) : Readable s name ∧ Readable s body := by
  obtain ⟨spec, hspec, hpair⟩ := List.mem_filterMap.mp hmem
  have hspec : Readable s spec := h.filtered _ spec hspec
  split at hpair
  · rename_i n b hn hb
    cases hpair
    exact ⟨hspec.child? hn, hspec.child? hb⟩
  · cases hpair

/-- Facts about fields are read. -/
theorem isOk_fieldFacts {owner : String} (h : Readable s c) : (fieldFacts s owner c).isOk = true := by
  refine isOk_bind (isOk_texts (h.filtered _)) fun _ _ => ?_
  split
  · rfl
  · rename_i type htype
    split
    · rfl
    · exact isOk_bind (h.part (List.mem_of_find?_eq_some htype)).text fun _ _ => rfl

/-- Those about structs are read without failure. -/
theorem failure_structFacts (h : Readable s c) : (structFacts s c).failure = none := by
  refine Trail.failure_each fun ⟨name, body⟩ hmem => ?_
  obtain ⟨hname, hbody⟩ := readable_of_specifications h hmem
  refine Trail.failure_given hname.text fun t _ => Trail.failure_append rfl ?_
  split
  · rfl
  · rename_i fields hfields
    exact Trail.failure_each fun field hfield =>
      Trail.failure_ofExcept (isOk_fieldFacts ((hbody.child? hfields).filtered _ field hfield))

/-- So are those about interfaces. -/
theorem failure_interfaceFacts (h : Readable s c) : (interfaceFacts s c).failure = none := by
  refine Trail.failure_each fun ⟨name, body⟩ hmem => ?_
  obtain ⟨hname, hbody⟩ := readable_of_specifications h hmem
  refine Trail.failure_given hname.text fun t _ => Trail.failure_append rfl ?_
  refine Trail.failure_each fun m hm => ?_
  split
  · rfl
  · rename_i methodName hmethod
    exact Trail.failure_given ((hbody.filtered _ m hm).child? hmethod).text fun _ _ => rfl

/-- The types of parameters are read. -/
theorem isOk_parameterTypes {o : Option Cursor} (h : ∀ l ∈ o, Readable s l) : (parameterTypes s o).isOk = true := by
  cases o with
  | none => rfl
  | some l =>
    refine isOk_collect fun d hd => ?_
    refine isOk_bind (isOk_parameterParts ((h l rfl).filtered _ d hd)) fun _ _ => ?_
    dsimp only
    split <;> rfl

/-- Facts about functions are read. -/
theorem isOk_functionFacts (h : Readable s c) : (functionFacts s c).isOk = true := by
  refine isOk_bind (isOk_text? fun d hd => h.child? hd) fun _ _ => ?_
  split
  · rfl
  · refine isOk_bind (isOk_parameterTypes fun l hl => ?_) fun _ _ => ?_
    · exact h.part (afterReceiver_subset (List.mem_of_find?_eq_some hl))
    · exact isOk_bind (isOk_returnTypes h) fun _ _ => rfl

/-- The parameters of a method are readable. -/
theorem readable_of_methodParameters (h : Readable s c) : ∀ l ∈ methodParameters c, Readable s l :=
  fun l hl => h.filtered _ l (List.mem_of_getElem? hl)

/-- Facts about methods are read. -/
theorem isOk_methodFacts (h : Readable s c) : (methodFacts s c).isOk = true := by
  refine isOk_bind (isOk_receiverType h) fun receiver _ => ?_
  refine isOk_bind (isOk_text? fun d hd => h.child? hd) fun _ _ => ?_
  split
  · rfl
  · refine isOk_bind (isOk_parameterTypes (readable_of_methodParameters h)) fun _ _ => ?_
    exact isOk_bind (isOk_returnTypes h) fun _ _ => rfl

/-- Those about receivers are read without failure. -/
theorem failure_receiverFacts (h : Readable s c) : (receiverFacts s c).failure = none := by
  refine Trail.failure_given (isOk_receiverType h) fun receiver _ => ?_
  cases receiver with
  | none => rfl
  | some r =>
    cases hname : c.child? "field_identifier" with
    | none => rfl
    | some name => exact Trail.failure_append rfl (Trail.failure_given (h.child? hname).text fun _ _ => rfl)

/-- All facts of a file are read without failure. -/
theorem failure_typeFacts (h : Readable s root) : (typeFacts s root).failure = none := by
  refine Trail.failure_each fun c hc => ?_
  have hc : Readable s c := h.part hc
  split
  · exact Trail.failure_append (failure_structFacts hc) (failure_interfaceFacts hc)
  split
  · exact Trail.failure_ofExcept (isOk_functionFacts hc)
  split
  · exact Trail.failure_append (Trail.failure_ofExcept (isOk_methodFacts hc)) (failure_receiverFacts hc)
  · rfl

/-- The type of a literal is read. -/
theorem isOk_literalType (h : Readable s c) : (literalType s c).isOk = true := by
  unfold literalType
  split
  · rename_i type rest hparts
    split
    · exact isOk_bind (h.part (hparts ▸ List.mem_cons_self)).text fun _ _ => rfl
    · rfl
  · rfl

/-- That of an expression is read. -/
theorem isOk_expressionType {k : TypeContext} (h : Readable s c) : (expressionType s k c).isOk = true := by
  unfold expressionType
  split
  · exact isOk_literalType h
  split
  · split
    · rename_i op inner rest hparts
      split
      · exact isOk_literalType (h.part (hparts ▸ List.mem_cons_of_mem op List.mem_cons_self))
      · rfl
    · rfl
  split
  · split
    · rfl
    · rename_i callee rest hparts
      have hcallee : Readable s callee := h.part (hparts ▸ List.mem_cons_self)
      dsimp only
      split
      · exact isOk_bind (isOk_map hcallee.text) fun _ _ => rfl
      split
      · exact isOk_bind (isOk_text? fun d hd => hcallee.child? hd) fun _ _ => rfl
      · rfl
  split
  · refine isOk_bind (isOk_text? fun d hd => ?_) fun _ _ => rfl
    exact h.part (List.mem_of_find?_eq_some hd)
  · rfl

/-- The types of assigned values are read. -/
theorem isOk_assignTypes {k : TypeContext} {names : List String} (h : ∀ c ∈ nodes, Readable s c) :
    (assignTypes s k scope names nodes).isOk = true := by
  induction nodes generalizing scope names with
  | nil => cases names <;> rfl
  | cons e nodes ih =>
    have hrest : ∀ c ∈ nodes, Readable s c := fun c hc => h c (List.mem_cons_of_mem e hc)
    cases names with
    | nil => rfl
    | cons name names =>
      refine isOk_bind (isOk_expressionType (h e List.mem_cons_self)) fun _ _ => ?_
      split
      · exact ih hrest
      · exact ih hrest

/-- Short declarations are read. -/
theorem isOk_shortDeclaration {k : TypeContext} (h : Readable s c) : (shortDeclaration s k scope c).isOk = true := by
  unfold shortDeclaration
  split
  · rename_i left r rs hlists
    have hlist : ∀ l ∈ left :: r :: rs, Readable s l := fun l hl => h.filtered _ l (hlists ▸ hl)
    refine isOk_bind (isOk_texts ((hlist left List.mem_cons_self).filtered _)) fun _ _ => ?_
    refine isOk_assignTypes fun e he => ?_
    have hright : (r :: rs).getLast?.getD r ∈ r :: rs := by
      rw [List.getLast?_eq_some_getLast (List.cons_ne_nil r rs)]
      exact List.getLast_mem _
    exact (hlist _ (List.mem_cons_of_mem left hright)).filtered _ e he
  · rfl

/-- Declared variables are read. -/
theorem isOk_variableSpecs (h : ∀ c ∈ nodes, Readable s c) : (variableSpecs s scope nodes).isOk = true := by
  induction nodes generalizing scope with
  | nil => rfl
  | cons c nodes ih =>
    refine isOk_bind ?_ fun _ _ => ih fun d hd => h d (List.mem_cons_of_mem c hd)
    refine isOk_bind (isOk_parameterParts (h c List.mem_cons_self)) fun _ _ => ?_
    dsimp only
    split <;> rfl

/-- The variables of a body are read. -/
theorem isOk_bodyScope {k : TypeContext} (h : ∀ c ∈ nodes, Readable s c) :
    (bodyScope s k scope nodes).isOk = true := by
  induction nodes generalizing scope with
  | nil => rfl
  | cons c nodes ih =>
    have hc : Readable s c := h c List.mem_cons_self
    have hrest : ∀ d ∈ nodes, Readable s d := fun d hd => h d (List.mem_cons_of_mem c hd)
    rw [bodyScope]
    dsimp only
    split
    · exact isOk_bind (isOk_shortDeclaration hc) fun _ _ => ih hrest
    split
    · exact isOk_bind (isOk_variableSpecs (hc.filtered _)) fun _ _ => ih hrest
    · exact ih hrest

/-- Those of a function are read. -/
theorem isOk_functionScope {k : TypeContext} (h : Readable s c) : (functionScope s k f c).isOk = true := by
  unfold functionScope
  cases hbody : c.child? "block" with
  | none => rfl
  | some body => exact isOk_bodyScope fun d hd => readable_of_mem_within (h.child? hbody) hd

/-- A function can be entered. -/
theorem isOk_enterFunction (h : Readable s c) : (enterFunction s k current c).isOk = true := by
  unfold enterFunction
  split
  · refine isOk_bind (isOk_text? fun d hd => h.child? hd) fun _ _ => ?_
    split
    · rfl
    · exact isOk_bind (isOk_functionScope h) fun _ _ => rfl
  split
  · refine isOk_bind (isOk_text? fun d hd => h.child? hd) fun _ _ => ?_
    split
    · rfl
    · refine isOk_bind (isOk_receiverType h) fun _ _ => ?_
      refine isOk_bind (isOk_receiverVariable h) fun _ _ => ?_
      exact isOk_bind (isOk_functionScope h) fun _ _ => rfl
  · rfl

/-- A chain of selectors is read down to a readable node. -/
theorem exists_selectorChain (fuel : Nat) (fields : List String) (h : Readable s c) :
    ∃ fields' first, selectorChain s fuel fields c = .ok (fields', first) ∧ Readable s first := by
  induction fuel generalizing fields c with
  | zero => exact ⟨fields, c, rfl, h⟩
  | succ fuel ih =>
    rw [selectorChain]
    split
    · split
      · rename_i field first rest hfield hparts
        have hfirst : Readable s first := h.part (hparts ▸ List.mem_cons_self)
        cases ht : s.text field with
        | error e =>
          have hread := (h.child? hfield).text
          rw [ht] at hread
          exact absurd hread Bool.false_ne_true
        | ok t => exact ih (t :: fields) hfirst
      · exact ⟨fields, c, rfl, h⟩
    · exact ⟨fields, c, rfl, h⟩

/-- The type of a selector is read. -/
theorem isOk_selectorType {k : TypeContext} (h : Readable s c) : (selectorType s k f c).isOk = true := by
  obtain ⟨fields, first, hchain, hfirst⟩ := exists_selectorChain (chainBound c) [] h
  rw [selectorType, hchain]
  refine isOk_bind rfl fun p hp => ?_
  cases hp
  dsimp only
  split
  · rfl
  · refine isOk_bind hfirst.text fun _ _ => ?_
    split <;> rfl

/-- Its name is read. -/
theorem isOk_selectorName (h : Readable s c) : (selectorName s c).isOk = true := by
  obtain ⟨fields, first, hchain, hfirst⟩ := exists_selectorChain (chainBound c) [] h
  rw [selectorName, hchain]
  refine isOk_bind rfl fun p hp => ?_
  cases hp
  dsimp only
  split
  · exact isOk_bind hfirst.text fun _ _ => rfl
  · rfl

/-- A callee is read. -/
theorem isOk_calleeOf (h : Readable s c) : (calleeOf s k f c).isOk = true := by
  unfold calleeOf
  split
  · exact isOk_bind h.text fun _ _ => rfl
  split
  · refine isOk_bind (isOk_text? fun d hd => h.child? hd) fun _ _ => ?_
    split
    · rfl
    split
    · rfl
    · rename_i operand rest hparts
      have hoperand : Readable s operand := h.part (hparts ▸ List.mem_cons_self)
      split
      · refine isOk_bind hoperand.text fun _ _ => ?_
        split <;> rfl
      split
      · refine isOk_bind (isOk_selectorType hoperand) fun _ _ => ?_
        split
        · rfl
        · exact isOk_bind (isOk_selectorName hoperand) fun _ _ => rfl
      · rfl
  · rfl

/-- A call is read. -/
theorem isOk_callAt (h : Readable s c) : (callAt s k f c).isOk = true := by
  unfold callAt
  split
  · rfl
  · rename_i callee rest hparts
    refine isOk_bind (isOk_calleeOf (h.part (hparts ▸ List.mem_cons_self))) fun _ _ => ?_
    split
    · rfl
    · split <;> rfl

/-- The type around a node is read. -/
theorem isOk_containingType (h : ∀ a ∈ c.ancestors, Readable s a) : (containingType s c).isOk = true := by
  unfold containingType
  split
  · rename_i spec hspec
    exact isOk_text? fun d hd => (h spec (List.mem_of_find?_eq_some hspec)).child? hd
  · rfl

/-- Embeddings in structs are read without failure. -/
theorem failure_structEmbedding (h : Readable s c) (habove : ∀ a ∈ c.ancestors, Readable s a) :
    (structEmbedding s c).failure = none := by
  refine Trail.failure_given (isOk_containingType habove) fun owner? _ => ?_
  split
  · rfl
  · refine Trail.failure_each fun field hfield => ?_
    obtain ⟨l, hl, hfield⟩ := List.mem_flatMap.mp hfield
    have hfield : Readable s field := (h.filtered _ l hl).filtered _ field hfield
    split
    · rename_i type htype _
      exact Trail.failure_ofExcept (isOk_bind (hfield.child? htype).text fun _ _ => rfl)
    · rfl

/-- So are those in interfaces. -/
theorem failure_interfaceEmbedding (h : Readable s c) (habove : ∀ a ∈ c.ancestors, Readable s a) :
    (interfaceEmbedding s c).failure = none := by
  refine Trail.failure_given (isOk_containingType habove) fun owner? _ => ?_
  split
  · rfl
  · refine Trail.failure_each fun element helement => ?_
    split
    · rename_i type htype _
      exact Trail.failure_ofExcept
        (isOk_bind ((h.filtered _ element helement).child? htype).text fun _ _ => rfl)
    · rfl

/-- All relationships at a node are read without failure. -/
theorem failure_relationshipsAt (h : Readable s c) (habove : ∀ a ∈ c.ancestors, Readable s a) :
    (relationshipsAt s k current c).failure = none := by
  unfold relationshipsAt
  split
  · split
    · rfl
    · split
      · rfl
      · exact Trail.failure_ofExcept (isOk_callAt h)
  split
  · exact failure_structEmbedding h habove
  split
  · exact failure_interfaceEmbedding h habove
  · rfl

/-- A tour through a readable tree does not fail. -/
theorem failure_relationshipsAlong {steps : List Cursor.Step} (hroot : root.parent = none) (h : Readable s root)
    (hsteps : ∀ d c, Cursor.Step.enter d c ∈ steps → c ∈ root.preorder) :
    (relationshipsAlong s k current steps).failure = none := by
  induction steps generalizing current with
  | nil => rfl
  | cons step rest ih =>
    have hrest : ∀ d c, Cursor.Step.enter d c ∈ rest → c ∈ root.preorder :=
      fun d c hmem => hsteps d c (List.mem_cons_of_mem step hmem)
    cases step with
    | enter d c =>
      have hc : c ∈ root.preorder := hsteps d c List.mem_cons_self
      refine Trail.failure_given (isOk_enterFunction (h.below hc)) fun now _ => ?_
      refine Trail.failure_append (failure_relationshipsAt (h.below hc) fun a ha => ?_) (ih hrest)
      exact h.below (Cursor.mem_preorder_of_mem_ancestors hroot hc ha)
    | leave d c => exact ih hrest

/-- In a readable tree all declarations and all relationships along the tour are found. -/
theorem exists_findings (hroot : root.parent = none) (h : Readable s root) :
    ∃ k : Context, k.table = remembered (declarations s root).found ∧
      (findings s root).findings.components = (declarations s root).found.map (·.1) ∧
      (findings s root).findings.relationships =
        (relationshipsAlong s k none (root.tour depthLimit)).found ∧
      (relationshipsAlong s k none (root.tour depthLimit)).failure = none := by
  obtain ⟨names, hnames⟩ := exists_of_isOk (isOk_imports h)
  refine ⟨⟨names, remembered (declarations s root).found, TypeContext.ofFacts (typeFacts s root).found⟩, rfl,
    ?_, ?_, failure_relationshipsAlong hroot h fun d c hmem =>
      Cursor.mem_preorder_of_mem_within (Cursor.mem_within_of_enter hmem)⟩
  · simp only [findings, hnames, failure_declarations h, Option.isSome_none, Bool.false_eq_true, if_false]
  · simp only [findings, hnames, failure_declarations h, failure_typeFacts h, Option.isSome_none,
      Bool.false_eq_true, if_false]

end RepoAtlas.Extract.Go
