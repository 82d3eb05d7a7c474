import RepoAtlas.Extract.Python

/-!
# Visits of Python source, event by event

A visit of phrases enters and leaves definitions and meets calls. These events stand in one list, and the
visit takes one step at each of them. A definition that cannot be described stops the visit: nothing is
found after it.
-/

namespace RepoAtlas.Extract.Python

open Grammar

/-- The kinds of definitions that a place can lie in. -/
inductive Level where
  | type
  | function
  deriving DecidableEq, Repr

/-- What a visit comes across. -/
inductive Event where
  | enterType (line endLine : Nat) (name : String) (bases body : List Phrase)
  | enterFunction (line endLine : Nat) (name : String) (parameters : List String)
      (body : List Phrase)
  | leave (level : Level)
  | call (line : Nat) (callee : Phrase)

mutual
/-- What a visit of a phrase comes across, in order. -/
def events : Phrase → List Event
  | .name _ => []
  | .text _ => []
  | .attribute value _ => events value
  | .compound _ parts => eventsAll parts
  | .call line callee arguments => .call line callee :: (events callee ++ eventsAll arguments)
  | .function line endLine name parameters signature body decorators returns =>
    .enterFunction line endLine name parameters body ::
      (eventsAll signature ++ eventsAll body ++ eventsAll decorators ++ eventsAll returns ++
        [.leave .function])
  | .type line endLine name bases keywords body decorators =>
    .enterType line endLine name bases body ::
      (eventsAll bases ++ eventsAll keywords ++ eventsAll body ++ eventsAll decorators ++
        [.leave .type])

/-- What a visit of phrases one after the other comes across. -/
def eventsAll : List Phrase → List Event
  | [] => []
  | p :: ps => events p ++ eventsAll ps
end

namespace Visit

variable {m : Module} {v w : Visit}

/-- The definition of a kind that a visit takes itself to be in. -/
def current (v : Visit) : Level → Option String
  | .type => v.inClass
  | .function => v.inFunction

/-- Forget the definition that the visit is in. -/
def leave (v : Visit) : Level → Visit
  | .type => { v with inClass := none }
  | .function => { v with inFunction := none }

/-- The visit with a function kept, unless it is in a class; a function that is to be kept has to be
described. -/
def keepFunction? (m : Module) (v : Visit) (line endLine : Nat) (name : String)
    (parameters : List String) (body : List Phrase) : Option Visit :=
  if v.inClass.isSome then some v
  else (component? m "function" name line endLine body).map (v.declareFunction · parameters)

/-- Go on with an event. -/
def step (m : Module) (v : Visit) (e : Event) : Visit :=
  if v.stopped then v
  else
    match e with
    | .enterType line endLine name bases body =>
      match component? m "class" name line endLine body with
      | none => { v with stopped := true }
      | some c => { v.declareClass m c (bases.filterMap dottedName?) with inClass := some name }
    | .enterFunction line endLine name parameters body =>
      match v.keepFunction? m line endLine name parameters body with
      | none => { v with stopped := true }
      | some w => { w with inFunction := some name }
    | .leave l => v.leave l
    | .call line callee => v.call m line callee

/-- Go on with events one after the other. -/
def run (m : Module) (v : Visit) (es : List Event) : Visit :=
  es.foldl (step m) v

/-- The first event comes first. -/
theorem run_cons (e : Event) (es : List Event) : v.run m (e :: es) = (v.step m e).run m es := rfl

/-- Events go on after others. -/
theorem run_append (es fs : List Event) : v.run m (es ++ fs) = (v.run m es).run m fs :=
  List.foldl_append

/-- A visit that has stopped does not go on. -/
theorem step_of_stopped (h : v.stopped = true) (e : Event) : v.step m e = v :=
  if_pos h

/-- Nor does it with several events. -/
theorem run_of_stopped (h : v.stopped = true) (es : List Event) : v.run m es = v := by
  induction es with
  | nil => rfl
  | cons e es ih => rw [run_cons, step_of_stopped h, ih]

/-- Two visits go on alike: they are the same, or both have stopped with the same findings. -/
def Agree (v w : Visit) : Prop :=
  v = w ∨ v.stopped = true ∧ w.stopped = true ∧ v.findings = w.findings

/-- Visits that go on alike are the same and have not stopped, or both have stopped. -/
theorem Agree.elim (h : v.Agree w) :
    v = w ∧ v.stopped = false ∨ v.stopped = true ∧ w.stopped = true ∧ v.findings = w.findings := by
  rcases h with rfl | h
  · cases hv : v.stopped with
    | false => exact Or.inl ⟨rfl, rfl⟩
    | true => exact Or.inr ⟨rfl, rfl, rfl⟩
  · exact Or.inr h

/-- Visits that agree have the same findings. -/
theorem Agree.findings_eq (h : v.Agree w) : v.findings = w.findings := by
  rcases h with rfl | ⟨-, -, h⟩
  · rfl
  · exact h

/-- Visits that go on alike do so when they leave a definition. -/
theorem Agree.leave (h : v.Agree w) (m : Module) (l : Level) : (v.leave l).Agree (w.step m (.leave l)) := by
  rcases h.elim with ⟨rfl, hv⟩ | ⟨hv, hw, hfindings⟩
  · refine Or.inl ?_
    rw [step, if_neg (by simp [hv])]
  · rw [step_of_stopped hw]
    cases l with
    | type => exact Or.inr ⟨hv, hw, hfindings⟩
    | function => exact Or.inr ⟨hv, hw, hfindings⟩

end Visit

variable {m : Module} {v : Visit}

mutual
/-- A visit that has stopped finds nothing in a phrase. -/
theorem visit_of_stopped (h : v.stopped = true) (p : Phrase) : visit m v p = v := by
  match p with
  | .name id => rw [visit]
  | .text value => rw [visit]
  | .attribute value field => rw [visit, visit_of_stopped h value]
  | .compound form parts => rw [visit, visitAll_of_stopped h parts]
  | .call line callee arguments => rw [visit, if_pos h]
  | .function line endLine name parameters signature body decorators returns =>
    rw [visit, if_pos h]
  | .type line endLine name bases keywords body decorators => rw [visit, if_pos h]

/-- Nor does it in several. -/
theorem visitAll_of_stopped (h : v.stopped = true) (ps : List Phrase) : visitAll m v ps = v := by
  cases ps with
  | nil => rw [visitAll]
  | cons p ps => rw [visitAll, visit_of_stopped h p, visitAll_of_stopped h ps]
end

mutual
/-- A visit of a phrase goes on like a run of its events. -/
theorem agree_visit {v w : Visit} (h : v.Agree w) (p : Phrase) : (visit m v p).Agree (w.run m (events p)) := by
  rcases h.elim with ⟨rfl, hv⟩ | hstopped
  · have hgoes : ¬v.stopped = true := by simp [hv]
    match p with
    | .name id =>
      rw [visit, events]
      exact Or.inl rfl
    | .text value =>
      rw [visit, events]
      exact Or.inl rfl
    | .attribute value field =>
      rw [visit, events]
      exact agree_visit h value
    | .compound form parts =>
      rw [visit, events]
      exact agree_visitAll h parts
    | .call line callee arguments =>
      rw [visit, if_neg hgoes, events, Visit.run_cons, Visit.run_append, Visit.step, if_neg hgoes]
      exact agree_visitAll (agree_visit (Or.inl rfl) callee) arguments
    | .function line endLine name parameters signature body decorators returns =>
      rw [visit, if_neg hgoes, events, Visit.run_cons, Visit.step, if_neg hgoes]
      -- The visit keeps a function as a step does, but leaves it also if it has stopped on the way.
      change Visit.Agree (match v.keepFunction? m line endLine name parameters body with
        | none => { v with stopped := true }
        | some w => (visitAll m (visitAll m (visitAll m (visitAll m { w with inFunction := some name }
            signature) body) decorators) returns).leave .function) _
      cases hkept : v.keepFunction? m line endLine name parameters body with
      | none =>
        rw [Visit.run_of_stopped rfl]
        exact Or.inl rfl
      | some u =>
        simp only [Visit.run_append]
        exact Visit.Agree.leave (agree_visitAll (agree_visitAll (agree_visitAll (agree_visitAll
          (Or.inl rfl) signature) body) decorators) returns) m .function
    | .type line endLine name bases keywords body decorators =>
      rw [visit, if_neg hgoes, events, Visit.run_cons, Visit.step, if_neg hgoes]
      cases hc : component? m "class" name line endLine body with
      | none =>
        rw [Visit.run_of_stopped rfl]
        exact Or.inl rfl
      | some c =>
        simp only [Visit.run_append]
        exact Visit.Agree.leave (agree_visitAll (agree_visitAll (agree_visitAll (agree_visitAll
          (Or.inl rfl) bases) keywords) body) decorators) m .type
  · rw [visit_of_stopped hstopped.1, Visit.run_of_stopped hstopped.2.1]
    exact h

/-- Visiting phrases agrees with going through their events. -/
theorem agree_visitAll {v w : Visit} (h : v.Agree w) (ps : List Phrase) :
    (visitAll m v ps).Agree (w.run m (eventsAll ps)) := by
  cases ps with
  | nil =>
    rw [visitAll, eventsAll]
    exact h
  | cons p ps =>
    rw [visitAll, eventsAll, Visit.run_append]
    exact agree_visitAll (agree_visit h p) ps
end

/-- What a component tells of its definition. -/
theorem told_of_component? {kind name : String} {line endLine : Nat} {body : List Phrase} {d : Component}
    (h : component? m kind name line endLine body = some d) :
    d.id = m.name ++ "." ++ name ∧ d.name = name ∧ d.implementsInterfaces = [] := by
  simp only [component?, Option.bind_eq_bind, Option.bind_eq_some_iff] at h
  obtain ⟨relative, -, h⟩ := h
  split at h
  · cases h
    exact ⟨rfl, rfl, rfl⟩
  · cases h
  · cases h
    exact ⟨rfl, rfl, rfl⟩

/-- What a visit has found and the names that it knows have a property that keeping components and calls does not
change, whatever definition the visit is in. -/
structure Invariant (m : Module) (P : Visit → Prop) : Prop where
  place : ∀ {v w : Visit}, P v → w.findings = v.findings → w.known = v.known → P w
  declareClass : ∀ {v kind name line endLine body d}, component? m kind name line endLine body = some d → P v →
    ∀ bases, P (v.declareClass m d bases)
  declareFunction : ∀ {v kind name line endLine body d}, component? m kind name line endLine body = some d → P v →
    ∀ parameters, P (v.declareFunction d parameters)
  call : ∀ {v}, P v → ∀ line callee, P (v.call m line callee)

/-- Every event leaves an invariant as it is. -/
theorem Invariant.step {P : Visit → Prop} (hP : Invariant m P) (hv : P v) (e : Event) : P (v.step m e) := by
  unfold Visit.step
  split
  · exact hv
  · cases e with
    | enterType line endLine name bases body =>
      dsimp only
      split
      · exact hP.place hv rfl rfl
      · rename_i d hd
        exact hP.place (hP.declareClass hd hv _) rfl rfl
    | enterFunction line endLine name parameters body =>
      dsimp only
      split
      · exact hP.place hv rfl rfl
      · rename_i w hw
        have hkept : P w := by
          unfold Visit.keepFunction? at hw
          split at hw
          · exact Option.some.inj hw ▸ hv
          · obtain ⟨d, hd, rfl⟩ := Option.map_eq_some_iff.mp hw
            exact hP.declareFunction hd hv parameters
        exact hP.place hkept rfl rfl
    | leave l => cases l <;> exact hP.place hv rfl rfl
    | call line callee => exact hP.call hv line callee

/-- An invariant holds after all events. -/
theorem Invariant.run {P : Visit → Prop} (hP : Invariant m P) (hv : P v) (es : List Event) : P (v.run m es) := by
  induction es generalizing v with
  | nil => exact hv
  | cons e es ih => exact ih (hP.step hv e)

/-- Visiting phrases finds what their events give. -/
theorem findings_visitAll (m : Module) (v : Visit) (ps : List Phrase) :
    (visitAll m v ps).findings = (v.run m (eventsAll ps)).findings :=
  (agree_visitAll (Or.inl rfl) ps).findings_eq

/-- A visit that has not stopped goes through the events. -/
theorem visit_eq_run {p : Phrase} (h : (visit m v p).stopped = false) : visit m v p = v.run m (events p) := by
  rcases agree_visit (Or.inl rfl) p with heq | ⟨hstopped, -, -⟩
  · exact heq
  · exact absurd (h.symm.trans hstopped) Bool.false_ne_true

end RepoAtlas.Extract.Python
