import RepoAtlas.Metric.Complexity
import RepoAtlas.Proofs.Keyed

/-!
# Which measures components get

A routine is assigned to the first component of its file that it overlaps or whose name it carries, and to no
other. So a component lacks the measures of its own routine if one before it, such as the class around a method,
takes the routine.
-/

namespace RepoAtlas.Metric

/-! ## Measures -/

/-- What is measured of routines and of components alike. -/
inductive Measure where
  | cyclomatic
  | lines
  | tokens
  | parameters

/-- A measure of a routine. -/
def Measure.ofRoutine : Measure → Routine → Int
  | .cyclomatic, r => r.cyclomatic
  | .lines, r => r.nloc
  | .tokens, r => r.tokens
  | .parameters, r => r.parameters

/-- A measure of a component. -/
def Measure.ofComponent : Measure → Component → Int
  | .cyclomatic, c => c.cyclomatic
  | .lines, c => c.nloc
  | .tokens, c => c.tokenCount
  | .parameters, c => c.parameterCount

/-- A component that a routine describes: it has the name and the lines of the routine. -/
structure Routine.Describes (r : Routine) (c : Component) : Prop where
  name : c.name = r.name
  startLine : (c.startLine : Int) = r.startLine
  endLine : (c.endLine : Int) = r.endLine

variable {path id : String} {cs ds : Components} {c : Component} {r : Routine} {rs : List Routine} {x : Int}

/-- A routine belongs to the component that it describes. -/
theorem Routine.Describes.belongs (h : r.Describes c) : r.belongs c = true := by
  simp [Routine.belongs, h.name]

/-- A routine raises a measure to its own if that is greater. -/
theorem ofComponent_raise (m : Measure) (r : Routine) (c : Component) :
    m.ofComponent (r.raise c) = max (m.ofComponent c) (m.ofRoutine r) := by
  cases m <;> simp only [Measure.ofComponent, Measure.ofRoutine, Routine.raise] <;> omega

/-- The measures of a component are the greatest of its own and of those of the routines that it takes. -/
theorem le_ofComponent_foldl_raise_iff (m : Measure) :
    x ≤ m.ofComponent (rs.foldl (fun c r => r.raise c) c) ↔ x ≤ m.ofComponent c ∨ ∃ r ∈ rs, x ≤ m.ofRoutine r := by
  induction rs generalizing c with
  | nil => simp
  | cons r rs ih =>
    have hmax : x ≤ max (m.ofComponent c) (m.ofRoutine r) ↔ x ≤ m.ofComponent c ∨ x ≤ m.ofRoutine r := by omega
    rw [List.foldl_cons, ih, ofComponent_raise, hmax, List.exists_mem_cons_iff, or_assoc]

/-! ## One routine -/

/-- The component that takes a routine of a file: the first one of the file that the routine belongs to. -/
def taker? (path : String) (cs : Components) (r : Routine) : Option String :=
  (cs.entries.find? fun e => e.2.filePath = path && r.belongs e.2).map (·.1)

/-- A component without its measures. -/
def unmeasured (c : Component) : Component :=
  { c with cyclomatic := 0, nloc := 0, tokenCount := 0, parameterCount := 0 }

/-- Assigning a routine changes only its taker. -/
theorem assignRoutine_eq (path : String) (cs : Components) (r : Routine) :
    assignRoutine path cs r = ((taker? path cs r).map fun id => cs.modify id r.raise).getD cs := by
  unfold assignRoutine taker?
  split <;> rename_i hfind <;> rw [hfind] <;> rfl

/-- What is found after assigning is raised if it took the routine. -/
theorem get?_assignRoutine (path : String) (cs : Components) (r : Routine) (id : String) :
    (assignRoutine path cs r).get? id =
      (cs.get? id).map fun c => if taker? path cs r = some id then r.raise c else c := by
  rw [assignRoutine_eq]
  cases taker? path cs r with
  | none => simp
  | some taker =>
    rw [Option.map_some, Option.getD_some, Keyed.get?_modify]
    simp only [Option.some.injEq, eq_comm]

/-- Assigning changes measures only. -/
theorem map_unmeasured_assignRoutine (path : String) (cs : Components) (r : Routine) :
    (assignRoutine path cs r).map (fun _ => unmeasured) = cs.map fun _ => unmeasured := by
  rw [assignRoutine_eq]
  cases taker? path cs r with
  | none => rfl
  | some taker => exact Keyed.map_modify cs taker unmeasured fun c => rfl

/-- Who takes a routine does not depend on measures. -/
theorem taker?_map_unmeasured (path : String) (cs : Components) (r : Routine) :
    taker? path (cs.map fun _ => unmeasured) r = taker? path cs r := by
  unfold taker?
  rw [Keyed.map, List.find?_map, Option.map_map]
  rfl

/-- Measures do not decide who takes a routine. -/
theorem taker?_congr (h : ds.map (fun _ => unmeasured) = cs.map fun _ => unmeasured) (path : String) (r : Routine) :
    taker? path ds r = taker? path cs r := by
  rw [← taker?_map_unmeasured path ds, h, taker?_map_unmeasured]

/-! ## All routines -/

/-- The routines of all files, each with the path of its file, in the order in which they are assigned. -/
def jobs (routines : Keyed (List Routine)) (cs : Components) : List (String × Routine) :=
  ((cs.values.map (·.filePath)).filter (· != "")).eraseDups.flatMap fun path =>
    ((routines.get? path).getD []).map (path, ·)

/-- All routines are assigned one by one. -/
theorem assignRoutines_eq (routines : Keyed (List Routine)) (cs : Components) :
    assignRoutines routines cs = (jobs routines cs).foldl (fun ds job => assignRoutine job.1 ds job.2) cs := by
  rw [jobs, List.foldl_flatMap, assignRoutines]
  simp only [List.foldl_map]

/-- In the end a component is raised by all the routines that it takes. -/
theorem get?_foldl_assignRoutine (todo : List (String × Routine)) (cs : Components) (id : String) :
    (todo.foldl (fun ds job => assignRoutine job.1 ds job.2) cs).get? id =
      (cs.get? id).map fun c =>
        ((todo.filter fun job => taker? job.1 cs job.2 = some id).map (·.2)).foldl (fun c r => r.raise c) c := by
  induction todo generalizing cs with
  | nil => simp
  | cons job todo ih =>
    obtain ⟨path, r⟩ := job
    have htaker : ∀ path' r', taker? path' (assignRoutine path cs r) r' = taker? path' cs r' :=
      fun path' r' => taker?_congr (map_unmeasured_assignRoutine path cs r) path' r'
    rw [List.foldl_cons, ih, get?_assignRoutine, Option.map_map]
    simp only [htaker]
    refine congrArg (fun f => (cs.get? id).map f) (funext fun c => ?_)
    by_cases htakes : taker? path cs r = some id
    · simp [htakes]
    · simp [htakes]

/-! ## Measures that follow -/

/-- What the source adds keeps the measures of routines. -/
theorem ofComponent_withSourceMeasures (m : Measure) (c : Component) :
    m.ofComponent (withSourceMeasures c) = m.ofComponent c := by
  unfold withSourceMeasures
  split
  · rfl
  · split
    · rfl
    · cases m <;> rfl

/-- Scores keep the components and their measures. -/
theorem exists_get?_withScores (h : cs.get? id = some c) :
    ∃ d, (withScores cs).get? id = some d ∧ ∀ m : Measure, m.ofComponent d = m.ofComponent c := by
  unfold withScores
  split
  · exact ⟨c, h, fun m => rfl⟩
  · dsimp only
    rw [Keyed.get?_map, h]
    exact ⟨_, rfl, fun m => by cases m <;> rfl⟩

/-- The routines of a file that components are measured by; a component without a path has no file. -/
def routinesOf (routines : Keyed (List Routine)) (path : String) : List Routine :=
  if path = "" then [] else (routines.get? path).getD []

/-- The jobs in the file of a component are the routines of that file. -/
theorem mem_jobs_iff {routines : Keyed (List Routine)} (hc : (id, c) ∈ cs.entries) :
    (c.filePath, r) ∈ jobs routines cs ↔ r ∈ routinesOf routines c.filePath := by
  have hvalue : ∃ d ∈ cs.values, d.filePath = c.filePath := ⟨c, Keyed.mem_values_of_mem hc, rfl⟩
  by_cases hpath : c.filePath = ""
  · simp [jobs, routinesOf, hpath]
  · simp [jobs, routinesOf, hpath, hvalue]

/-- A routine is taken in its own file. -/
theorem path_eq_of_taker? (hc : (id, c) ∈ cs.entries) (h : taker? path cs r = some id) : c.filePath = path := by
  obtain ⟨⟨id', d⟩, hfind, hid⟩ := Option.map_eq_some_iff.mp h
  have hmem := List.mem_of_find?_eq_some hfind
  have hd : d = c := by
    have hget := (Keyed.get?_eq_some_iff cs).mpr hmem
    rw [show id' = id from hid, (Keyed.get?_eq_some_iff cs).mpr hc] at hget
    exact (Option.some.inj hget).symm
  have hfound := List.find?_some hfind
  simp only [hd, Bool.and_eq_true, decide_eq_true_eq] at hfound
  exact hfound.1

/-- The measures of a component end as the greatest of its own and of its routines. -/
theorem exists_get?_withComplexity (routines : Keyed (List Routine)) (hc : (id, c) ∈ cs.entries) :
    ∃ d, (withComplexity routines cs).get? id = some d ∧ ∀ (m : Measure) (x : Int),
      x ≤ m.ofComponent d ↔ x ≤ m.ofComponent c ∨
        ∃ r ∈ routinesOf routines c.filePath, taker? c.filePath cs r = some id ∧ x ≤ m.ofRoutine r := by
  have hget := (Keyed.get?_eq_some_iff cs).mpr hc
  have hassigned := get?_foldl_assignRoutine (jobs routines cs) cs id
  rw [← assignRoutines_eq, hget, Option.map_some] at hassigned
  have hsource := Keyed.get?_map (assignRoutines routines cs) (fun _ c => withSourceMeasures c) id
  rw [hassigned, Option.map_some] at hsource
  obtain ⟨d, hd, hmeasures⟩ := exists_get?_withScores hsource
  refine ⟨d, hd, fun m x => ?_⟩
  rw [hmeasures, ofComponent_withSourceMeasures, le_ofComponent_foldl_raise_iff]
  refine or_congr_right ⟨?_, ?_⟩
  · rintro ⟨r, hr, hx⟩
    obtain ⟨⟨path, r⟩, hjob, rfl⟩ := List.mem_map.mp hr
    obtain ⟨hjob, htaker⟩ := List.mem_filter.mp hjob
    have htaker : taker? path cs r = some id := of_decide_eq_true htaker
    obtain rfl := path_eq_of_taker? hc htaker
    exact ⟨r, (mem_jobs_iff hc).mp hjob, htaker, hx⟩
  · rintro ⟨r, hr, htaker, hx⟩
    have hjob : (c.filePath, r) ∈ (jobs routines cs).filter fun job => taker? job.1 cs job.2 = some id :=
      List.mem_filter.mpr ⟨(mem_jobs_iff hc).mpr hr, decide_eq_true htaker⟩
    exact ⟨r, List.mem_map.mpr ⟨_, hjob, rfl⟩, hx⟩

/-- A component takes a routine that belongs to it unless a component before it in the same file does. -/
theorem taker?_eq_some_iff {before after : List (String × Component)}
    (hcs : cs.entries = before ++ (id, c) :: after) (hbelongs : r.belongs c = true) :
    taker? c.filePath cs r = some id ↔ ∀ e ∈ before, e.2.filePath = c.filePath → r.belongs e.2 = false := by
  have hnodup := cs.nodup
  rw [hcs, List.map_append, List.map_cons] at hnodup
  have hbefore : ∀ e ∈ before, e.1 ≠ id := by
    intro e he hid
    exact (List.nodup_append.mp hnodup).2.2 _ (List.mem_map.mpr ⟨e, he, hid⟩) _ List.mem_cons_self rfl
  rw [taker?, hcs, List.find?_append]
  cases hfind : before.find? fun e => e.2.filePath = c.filePath && r.belongs e.2 with
  | none =>
    have hnone : ∀ e ∈ before, e.2.filePath = c.filePath → r.belongs e.2 = false := by
      simpa using hfind
    rw [Option.none_or, List.find?_cons_of_pos (by simp [hbelongs])]
    exact iff_of_true rfl hnone
  | some e =>
    have he := List.mem_of_find?_eq_some hfind
    have htakes := List.find?_some hfind
    simp only [Bool.and_eq_true, decide_eq_true_eq] at htakes
    rw [Option.some_or, Option.map_some]
    refine iff_of_false (fun hid => hbefore e he (Option.some.inj hid)) fun hnone => ?_
    exact Bool.false_ne_true ((hnone e he htakes.1).symm.trans htakes.2)

/-- A component has at least the measures of a routine that describes it exactly if the routine belongs to no
component before it, or each measure is reached without it. -/
theorem measures_reached_iff (routines : Keyed (List Routine)) (cs : Components)
    {before after : List (String × Component)} {id : String} {c : Component} {r : Routine}
    (hcs : cs.entries = before ++ (id, c) :: after) (hr : r ∈ routinesOf routines c.filePath)
    (hdescribes : r.Describes c) :
    ∃ d, (withComplexity routines cs).get? id = some d ∧
      ((∀ m : Measure, m.ofRoutine r ≤ m.ofComponent d) ↔
        (∀ e ∈ before, e.2.filePath = c.filePath → r.belongs e.2 = false) ∨
        ∀ m : Measure, m.ofRoutine r ≤ m.ofComponent c ∨
          ∃ other ∈ routinesOf routines c.filePath,
            taker? c.filePath cs other = some id ∧ m.ofRoutine r ≤ m.ofRoutine other) := by
  have hmem : (id, c) ∈ cs.entries := hcs ▸ List.mem_append_right before List.mem_cons_self
  obtain ⟨d, hd, hmeasures⟩ := exists_get?_withComplexity routines hmem
  refine ⟨d, hd, ?_⟩
  simp only [hmeasures]
  rw [← taker?_eq_some_iff hcs hdescribes.belongs]
  refine ⟨Or.inr, ?_⟩
  rintro (htaker | hreached) m
  · exact Or.inr ⟨r, hr, htaker, Int.le_refl _⟩
  · exact hreached m

/-- A method. -/
def plainMethod : Component :=
  { id := "m.A.f", name := "f", kind := "method", filePath := "/r/m.py", relativePath := "m.py", startLine := 2
    endLine := 4 }

/-- A function. -/
def plainFunction : Component :=
  { id := "m.g", name := "g", kind := "function", filePath := "/r/m.py", relativePath := "m.py", startLine := 6
    endLine := 8 }

/-- A class with the method, and the function below it. -/
def classAndFunction : Components :=
  Keyed.ofList [("m.A", { id := "m.A", name := "A", kind := "class", filePath := "/r/m.py", relativePath := "m.py"
                          startLine := 1, endLine := 4 }), ("m.A.f", plainMethod), ("m.g", plainFunction)]

/-- The routine of the method. -/
def methodRoutine : Routine :=
  { name := "f", longName := "f( self )", startLine := 2, endLine := 4, cyclomatic := 3, nloc := 3, tokens := 20
    parameters := 1 }

/-- The routine of the function. -/
def functionRoutine : Routine :=
  { name := "g", longName := "g( x )", startLine := 6, endLine := 8, cyclomatic := 2, nloc := 3, tokens := 15
    parameters := 1 }

/-- The routines of the file. -/
def bothRoutines : Keyed (List Routine) :=
  Keyed.ofList [("/r/m.py", [methodRoutine, functionRoutine])]

/-- The class does not keep the function from its measures. -/
theorem function_measures_reached :
    ∃ d, (withComplexity bothRoutines classAndFunction).get? "m.g" = some d ∧
      ∀ m : Measure, m.ofRoutine functionRoutine ≤ m.ofComponent d := by
  have hcs : classAndFunction.entries = classAndFunction.entries.take 2 ++ ("m.g", plainFunction) :: [] := rfl
  have hr : functionRoutine ∈ routinesOf bothRoutines plainFunction.filePath :=
    List.mem_cons_of_mem _ List.mem_cons_self
  have hdescribes : functionRoutine.Describes plainFunction := ⟨rfl, rfl, rfl⟩
  obtain ⟨d, hd, hreached⟩ := measures_reached_iff bothRoutines classAndFunction hcs hr hdescribes
  exact ⟨d, hd, hreached.mpr (Or.inl (by decide +kernel))⟩

/-- The class takes the routine of its method, which is left without measures. -/
theorem method_measures_missed :
    ("m.A.f", plainMethod) ∈ classAndFunction.entries ∧ methodRoutine ∈ routinesOf bothRoutines plainMethod.filePath ∧
      methodRoutine.Describes plainMethod ∧
      ∃ d, (withComplexity bothRoutines classAndFunction).get? "m.A.f" = some d ∧
        ∀ m : Measure, m.ofComponent d < m.ofRoutine methodRoutine := by
  have hmem : ("m.A.f", plainMethod) ∈ classAndFunction.entries := List.mem_cons_of_mem _ List.mem_cons_self
  have hother : ∀ r ∈ routinesOf bothRoutines plainMethod.filePath,
      taker? plainMethod.filePath classAndFunction r ≠ some "m.A.f" := by
    decide +kernel
  obtain ⟨d, hd, hmeasures⟩ := exists_get?_withComplexity bothRoutines hmem
  refine ⟨hmem, List.mem_cons_self, ⟨rfl, rfl, rfl⟩, d, hd, fun m => ?_⟩
  rw [← Int.not_le, hmeasures]
  rintro (hown | ⟨r, hr, htaker, -⟩)
  · cases m <;> exact absurd hown (by decide)
  · exact hother r hr htaker

end RepoAtlas.Metric
