import Mathlib.Data.List.Induction
import RepoAtlas.Proofs.Extract.Callee

/-!
# The scope of a visit

A visit of Python source remembers one class and one function that it is in, and leaving a definition it does
not go back to the one around. So what follows an inner definition is taken to be in none.
-/

namespace RepoAtlas.Extract.Python

open Syntax Grammar

variable {m : Module} {v : Visit} {l : Level} {e : Event} {line : Nat} {name : String} {es : List Event}

/-- The name of the definition of a kind that an event enters. -/
def Event.entered? (l : Level) : Event → Option String
  | .enterType _ _ name _ _ => if l = .type then some name else none
  | .enterFunction _ _ name _ _ => if l = .function then some name else none
  | _ => none

/-- Whether an event leaves a definition of a kind. -/
def Event.leaves (l : Level) : Event → Bool
  | .leave k => k = l
  | _ => false

/-- The definitions of a kind around a place after an event, innermost first. -/
def Event.enclose (l : Level) (around : List String) (e : Event) : List String :=
  match e.entered? l with
  | some name => name :: around
  | none => if e.leaves l then around.tail else around

/-- The definitions of a kind around the place that events lead to, innermost first. -/
def enclosing (l : Level) (es : List Event) : List String :=
  es.foldl (Event.enclose l) []

/-- The definition of a kind that a visit takes itself to be in after an event. -/
def Event.track (l : Level) (now : Option String) (e : Event) : Option String :=
  match e.entered? l with
  | some name => some name
  | none => if e.leaves l then none else now

/-- Whether the last definition of a kind to be entered or left has been left. -/
def leftLast (l : Level) (es : List Event) : Bool :=
  (es.filter fun e => (e.entered? l).isSome || e.leaves l).getLast?.any (Event.leaves l)

/-- Whether events lead to a place in a definition of a kind behind an inner one. -/
def forgotten (l : Level) (es : List Event) : Bool :=
  leftLast l es && !(enclosing l es).isEmpty

/-- Whether events enter a definition of a kind. -/
def defines (l : Level) (es : List Event) : Bool :=
  es.any fun e => (e.entered? l).isSome

section Event

variable {e : Event} {name : String} {around : List String} {now : Option String}

/-- No event enters and leaves. -/
theorem Event.leaves_of_entered (h : e.entered? l = some name) : e.leaves l = false := by
  cases e with
  | enterType line endLine name bases body => rfl
  | enterFunction line endLine name parameters body => rfl
  | leave k => cases h
  | call line callee => rfl

/-- Entering puts a definition around a place. -/
theorem Event.enclose_of_entered (h : e.entered? l = some name) : e.enclose l around = name :: around := by
  simp only [enclose, h]

/-- Leaving takes the innermost one away. -/
theorem Event.enclose_of_leaves (h : e.entered? l = none) (hleave : e.leaves l = true) :
    e.enclose l around = around.tail := by
  simp only [enclose, h, hleave, if_true]

/-- Other events change nothing around it. -/
theorem Event.enclose_of_other (h : e.entered? l = none) (hleave : e.leaves l = false) :
    e.enclose l around = around := by
  simp [enclose, h, hleave]

/-- A visit takes itself to be in what it enters. -/
theorem Event.track_of_entered (h : e.entered? l = some name) : e.track l now = some name := by
  simp only [track, h]

/-- It takes itself to be nowhere after leaving. -/
theorem Event.track_of_leaves (h : e.entered? l = none) (hleave : e.leaves l = true) : e.track l now = none := by
  simp only [track, h, hleave, if_true]

/-- Other events do not change where it takes itself to be. -/
theorem Event.track_of_other (h : e.entered? l = none) (hleave : e.leaves l = false) : e.track l now = now := by
  simp [track, h, hleave]

end Event

/-! ## The remembered scope -/

/-- A visit that goes on had not stopped. -/
theorem Visit.not_stopped_of_step (h : (v.step m e).stopped = false) : ¬v.stopped = true := by
  intro hv
  rw [Visit.step_of_stopped hv, hv] at h
  exact absurd h (by decide)

/-- Keeping a function does not change where a visit is. -/
theorem Visit.current_keepFunction? {endLine : Nat} {parameters : List String} {body : List Phrase} {w : Visit}
    (h : v.keepFunction? m line endLine name parameters body = some w) : w.current l = v.current l := by
  unfold Visit.keepFunction? at h
  split at h
  · exact Option.some.inj h ▸ rfl
  · obtain ⟨d, -, rfl⟩ := Option.map_eq_some_iff.mp h
    unfold Visit.declareFunction
    split
    · rfl
    · cases l <;> rfl

/-- An event that does not stop the visit moves its scope. -/
theorem Visit.current_step (h : (v.step m e).stopped = false) : (v.step m e).current l = e.track l (v.current l) := by
  have hv : ¬v.stopped = true := Visit.not_stopped_of_step h
  unfold Visit.step at h ⊢
  rw [if_neg hv] at h ⊢
  cases e with
  | enterType line endLine name bases body =>
    dsimp only at h ⊢
    split at h
    · exact absurd h Bool.noConfusion
    · cases l <;> rfl
  | enterFunction line endLine name parameters body =>
    dsimp only at h ⊢
    split at h
    · exact absurd h Bool.noConfusion
    · rename_i w hw
      have hkept : w.current .type = v.current .type := Visit.current_keepFunction? hw
      cases l with
      | type => exact hkept
      | function => rfl
  | leave k => cases k <;> cases l <;> rfl
  | call line callee =>
    change (v.call m line callee).current l = v.current l
    unfold Visit.call
    split <;> cases l <;> rfl

/-- Where a visit takes itself to be is tracked by events. -/
theorem Visit.current_run (h : (v.run m es).stopped = false) :
    (v.run m es).current l = es.foldl (Event.track l) (v.current l) := by
  induction es generalizing v with
  | nil => rfl
  | cons e es ih =>
    rw [Visit.run_cons] at h ⊢
    have hstep : (v.step m e).stopped = false := by
      by_contra hstopped
      rw [Visit.run_of_stopped (by simpa using hstopped)] at h
      exact hstopped h
    rw [ih h, Visit.current_step hstep, List.foldl_cons]

/-! ## What lies around a place -/

/-- Events that leave what they enter: the definitions around a place are the same behind them, and a
visit remembers none if there is one among them. -/
structure Bracketed (l : Level) (es : List Event) : Prop where
  enclose : ∀ around, es.foldl (Event.enclose l) around = around
  track : ∀ now, es.foldl (Event.track l) now = if defines l es then none else now

/-- The empty list of events is bracketed. -/
theorem Bracketed.nil : Bracketed l [] :=
  ⟨fun _ => rfl, fun _ => rfl⟩

/-- Bracketed events follow each other. -/
theorem Bracketed.append {fs : List Event} (hes : Bracketed l es) (hfs : Bracketed l fs) :
    Bracketed l (es ++ fs) := by
  refine ⟨fun around => ?_, fun now => ?_⟩
  · rw [List.foldl_append, hes.enclose, hfs.enclose]
  · have hdefines : defines l (es ++ fs) = (defines l es || defines l fs) := List.any_append
    rw [List.foldl_append, hes.track, hfs.track, hdefines]
    cases defines l es <;> cases defines l fs <;> rfl

/-- A call keeps events bracketed. -/
theorem Bracketed.call (hes : Bracketed l es) (line : Nat) (callee : Phrase) :
    Bracketed l (.call line callee :: es) :=
  ⟨hes.enclose, hes.track⟩

/-- What a definition encloses is bracketed with entering and leaving it. -/
theorem Bracketed.wrap {k : Level} (hes : Bracketed l es) (henter : e.entered? l = if l = k then some name else none)
    (hleave : e.leaves l = false) : Bracketed l (e :: (es ++ [.leave k])) := by
  by_cases hl : l = k
  · rw [if_pos hl] at henter
    have hleaves : (Event.leave k).leaves l = true := by simp [Event.leaves, hl]
    refine ⟨fun around => ?_, fun now => ?_⟩
    · rw [List.foldl_cons, Event.enclose_of_entered henter, List.foldl_append, hes.enclose]
      exact Event.enclose_of_leaves rfl hleaves
    · have hdefines : defines l (e :: (es ++ [.leave k])) = true := by simp [defines, henter]
      rw [List.foldl_cons, List.foldl_append, hdefines, if_pos rfl]
      exact Event.track_of_leaves rfl hleaves
  · rw [if_neg hl] at henter
    have hleaves : (Event.leave k).leaves l = false := by simp [Event.leaves, Ne.symm hl]
    refine ⟨fun around => ?_, fun now => ?_⟩
    · rw [List.foldl_cons, Event.enclose_of_other henter hleave, List.foldl_append, hes.enclose]
      exact Event.enclose_of_other rfl hleaves
    · have hentered : (Event.leave k).entered? l = none := rfl
      have hdefines : defines l (e :: (es ++ [.leave k])) = defines l es := by
        simp [defines, henter, hentered]
      rw [List.foldl_cons, Event.track_of_other henter hleave, List.foldl_append, hes.track, hdefines]
      exact Event.track_of_other rfl hleaves

mutual
/-- A phrase leaves all definitions that it enters. -/
theorem bracketed_events (l : Level) (p : Phrase) : Bracketed l (events p) := by
  match p with
  | .name id =>
    rw [events]
    exact Bracketed.nil
  | .text value =>
    rw [events]
    exact Bracketed.nil
  | .attribute value field =>
    rw [events]
    exact bracketed_events l value
  | .compound form parts =>
    rw [events]
    exact bracketed_eventsAll l parts
  | .call line callee arguments =>
    rw [events]
    exact ((bracketed_events l callee).append (bracketed_eventsAll l arguments)).call line callee
  | .function line endLine name parameters signature body decorators returns =>
    rw [events]
    exact ((((bracketed_eventsAll l signature).append (bracketed_eventsAll l body)).append
      (bracketed_eventsAll l decorators)).append (bracketed_eventsAll l returns)).wrap rfl rfl
  | .type line endLine name bases keywords body decorators =>
    rw [events]
    exact ((((bracketed_eventsAll l bases).append (bracketed_eventsAll l keywords)).append
      (bracketed_eventsAll l body)).append (bracketed_eventsAll l decorators)).wrap rfl rfl

/-- The events of phrases are bracketed. -/
theorem bracketed_eventsAll (l : Level) (ps : List Phrase) : Bracketed l (eventsAll ps) := by
  cases ps with
  | nil =>
    rw [eventsAll]
    exact Bracketed.nil
  | cons p ps =>
    rw [eventsAll]
    exact (bracketed_events l p).append (bracketed_eventsAll l ps)
end

/-- The last event tells if it enters or leaves. -/
theorem leftLast_concat (l : Level) (es : List Event) (e : Event) :
    leftLast l (es ++ [e]) = if (e.entered? l).isSome || e.leaves l then e.leaves l else leftLast l es := by
  unfold leftLast
  rw [List.filter_append]
  split
  · rename_i hkind
    rw [List.filter_cons_of_pos (by simpa using hkind), List.filter_nil, List.getLast?_concat, Option.any_some]
  · rename_i hkind
    rw [List.filter_cons_of_neg (by simpa using hkind), List.filter_nil, List.append_nil]

/-- A visit remembers the innermost definition around a place, unless an inner one has been left last. -/
theorem foldl_track_eq (l : Level) (es : List Event) :
    es.foldl (Event.track l) none = if leftLast l es then none else (enclosing l es).head? := by
  -- From the end: only the last event of the kind counts.
  induction es using List.reverseRecOn with
  | nil => rfl
  | append_singleton es e ih =>
    rw [List.foldl_concat, leftLast_concat, enclosing, List.foldl_concat]
    cases henter : e.entered? l with
    | some name =>
      rw [Event.track_of_entered henter, Event.enclose_of_entered henter, Event.leaves_of_entered henter]
      rfl
    | none =>
      cases hleave : e.leaves l with
      | true =>
        rw [Event.track_of_leaves henter hleave]
        rfl
      | false =>
        rw [Event.track_of_other henter hleave, Event.enclose_of_other henter hleave, ih]
        rfl

/-- A visit takes itself to be in the innermost definition around a place, or in none if that is forgotten. -/
theorem Visit.current_run_empty (h : (Visit.run m {} es).stopped = false) :
    (Visit.run m {} es).current l = if forgotten l es then none else (enclosing l es).head? := by
  have hstart : Visit.current {} l = none := by cases l <;> rfl
  rw [Visit.current_run h, hstart, foldl_track_eq, forgotten]
  cases leftLast l es with
  | false => rfl
  | true => cases enclosing l es <;> rfl

/-- A visit is in no definition of a kind where there is none, or where it is forgotten. -/
theorem Visit.current_run_eq_none_iff (h : (Visit.run m {} es).stopped = false) :
    (Visit.run m {} es).current l = none ↔ enclosing l es = [] ∨ forgotten l es = true := by
  rw [Visit.current_run_empty h]
  cases forgotten l es with
  | true => simp
  | false => simp

/-! ## What is kept at a place -/

/-- An event gives a component. -/
def Visit.Keeps (m : Module) (v : Visit) (e : Event) : Prop :=
  ∃ d, (v.step m e).findings.components = v.findings.components ++ [d]

/-- An event gives a relationship. -/
def Visit.Relates (m : Module) (v : Visit) (e : Event) : Prop :=
  ∃ r, (v.step m e).findings.relationships = v.findings.relationships ++ [r]

/-- A function gives a component outside of classes, unless it is an inner part of tests. -/
theorem Visit.keeps_enterFunction_iff {endLine : Nat}
    {parameters : List String} {body : List Phrase}
    (h : (v.step m (.enterFunction line endLine name parameters body)).stopped = false) :
    v.Keeps m (.enterFunction line endLine name parameters body) ↔
      v.inClass = none ∧ Text.begins name "_test_" = false := by
  have hunchanged : ∀ d, ¬v.findings.components = v.findings.components ++ [d] := by simp
  have hv : ¬v.stopped = true := Visit.not_stopped_of_step h
  unfold Visit.Keeps
  unfold Visit.step at h ⊢
  rw [if_neg hv] at h ⊢
  dsimp only at h ⊢
  cases hkept : v.keepFunction? m line endLine name parameters body with
  | none =>
    rw [hkept] at h
    exact absurd h Bool.noConfusion
  | some w =>
    change (∃ d, w.findings.components = v.findings.components ++ [d]) ↔ _
    cases hclass : v.inClass with
    | some c =>
      simp only [Visit.keepFunction?, hclass, Option.isSome_some, if_true, Option.some.injEq] at hkept
      subst hkept
      exact ⟨fun ⟨d, hd⟩ => absurd hd (hunchanged d),
        fun hnone => absurd hnone.1 (Option.some_ne_none c)⟩
    | none =>
      simp only [Visit.keepFunction?, hclass, Option.isSome_none, Bool.false_eq_true, if_false,
        Option.map_eq_some_iff] at hkept
      obtain ⟨d, hd, rfl⟩ := hkept
      rw [Visit.declareFunction, (told_of_component? hd).2.1]
      cases hname : Text.begins name "_test_" with
      | true =>
        exact ⟨fun ⟨d, hd⟩ => absurd hd (hunchanged d), fun hnone => absurd hnone.2 (by decide)⟩
      | false => exact ⟨fun _ => ⟨rfl, rfl⟩, fun _ => ⟨_, rfl⟩⟩

/-- A visit is in a definition if it is in a class or in a function. -/
theorem Visit.exists_current_iff :
    (∃ l, v.current l ≠ none) ↔ (v.inClass.orElse fun _ => v.inFunction).isSome = true := by
  constructor
  · rintro ⟨l, hl⟩
    cases l with
    | type =>
      obtain ⟨c, hc⟩ := Option.ne_none_iff_exists'.mp hl
      change v.inClass = some c at hc
      simp [hc]
    | function =>
      obtain ⟨f, hf⟩ := Option.ne_none_iff_exists'.mp hl
      change v.inFunction = some f at hf
      cases hc : v.inClass with
      | some c => simp
      | none => simp [hf]
  · intro h
    cases hc : v.inClass with
    | some c => exact ⟨.type, fun hnone => absurd (hc.symm.trans hnone) (Option.some_ne_none c)⟩
    | none =>
      refine ⟨.function, fun hnone => ?_⟩
      change v.inFunction = none at hnone
      simp [hc, hnone] at h

/-- A call gives a relationship in a class or function, if what is called has a name that counts. -/
theorem Visit.relates_call_iff {callee : Phrase} (h : v.stopped = false) :
    v.Relates m (.call line callee) ↔ (calledName? callee).isSome = true ∧ ∃ l, v.current l ≠ none := by
  have hunchanged : ∀ r, ¬v.findings.relationships = v.findings.relationships ++ [r] := by simp
  have hcalls : v.step m (.call line callee) = v.call m line callee := if_neg (by simp [h])
  rw [Visit.Relates, hcalls, Visit.exists_current_iff, Visit.call]
  cases v.inClass.orElse fun _ => v.inFunction with
  | none =>
    exact ⟨fun ⟨r, hr⟩ => absurd hr (hunchanged r), fun hsome => absurd hsome.2 Bool.noConfusion⟩
  | some caller =>
    cases calledName? callee with
    | none =>
      exact ⟨fun ⟨r, hr⟩ => absurd hr (hunchanged r), fun hsome => absurd hsome.1 Bool.noConfusion⟩
    | some name => exact ⟨fun _ => ⟨rfl, rfl⟩, fun _ => ⟨_, rfl⟩⟩

/-- A phrase leaves the scope of a visit as it was exactly if there was none or it has no definition of that
kind. So a function gives a component exactly if no class is around it or the class is forgotten, and a call a
relationship if a definition around it is not. -/
theorem scope_restored_iff (m : Module) :
    (∀ v p l, (visit m v p).stopped = false →
      ((visit m v p).current l = v.current l ↔
        v.current l = none ∨ defines l (events p) = false)) ∧
    (∀ l before p, enclosing l (before ++ events p) = enclosing l before) ∧
    (∀ ps, (visitAll m {} ps).findings = (Visit.run m {} (eventsAll ps)).findings) ∧
    (∀ before l, (Visit.run m {} before).stopped = false →
      (Visit.run m {} before).current l =
        if forgotten l before then none else (enclosing l before).head?) ∧
    (∀ before line endLine name parameters body,
      ((Visit.run m {} before).step m
        (.enterFunction line endLine name parameters body)).stopped = false →
      ((Visit.run m {} before).Keeps m (.enterFunction line endLine name parameters body) ↔
        (enclosing .type before = [] ∨ forgotten .type before = true) ∧
          Text.begins name "_test_" = false)) ∧
    (∀ before line callee, (Visit.run m {} before).stopped = false →
      ((Visit.run m {} before).Relates m (.call line callee) ↔
        (calledName? callee).isSome = true ∧
          ∃ l, enclosing l before ≠ [] ∧ forgotten l before = false)) := by
  refine ⟨?_, ?_, findings_visitAll m {}, fun before l => Visit.current_run_empty, ?_, ?_⟩
  · intro v p l h
    have hrun := visit_eq_run h
    rw [hrun] at h ⊢
    rw [Visit.current_run h, (bracketed_events l p).track]
    cases defines l (events p) with
    | true => simp [eq_comm]
    | false => simp
  · intro l before p
    rw [enclosing, List.foldl_append, (bracketed_events l p).enclose]
    rfl
  · intro before line endLine name parameters body h
    have hbefore : (Visit.run m {} before).stopped = false := by
      simpa using Visit.not_stopped_of_step h
    rw [Visit.keeps_enterFunction_iff h]
    exact and_congr_left fun _ => Visit.current_run_eq_none_iff (l := .type) hbefore
  · intro before line callee h
    rw [Visit.relates_call_iff h]
    refine and_congr_right fun _ => exists_congr fun l => ?_
    rw [Ne, Visit.current_run_eq_none_iff h, not_or, Bool.not_eq_true]

/-- A method that calls a function. -/
def sampleMethod : Phrase :=
  .function 3 4 "f" ["self"] [] [.call 4 (.name "g") []] [] []

/-- A class without content. -/
def bareClass : Phrase :=
  .type 2 2 "B" [] [] [] []

/-- A module in a file of its own. -/
def sampleModule : Module :=
  ⟨"m", [], "m.py", some "m.py"⟩

/-- The beginning of a class with a method. -/
def enterOwner : Event :=
  .enterType 1 4 "A" [] [sampleMethod]

/-- The beginning of the method. -/
def enterMethod : Event :=
  .enterFunction 3 4 "f" ["self"] [.call 4 (.name "g") []]

/-- Without an inner class, a method is no component, and what it calls is related to its class. -/
theorem method_scope_kept :
    events (.type 1 4 "A" [] [] [sampleMethod] []) =
      [enterOwner, enterMethod, .call 4 (.name "g"), .leave .function, .leave .type] ∧
    ¬(Visit.run sampleModule {} [enterOwner]).Keeps sampleModule enterMethod ∧
    (Visit.run sampleModule {} [enterOwner, enterMethod]).Relates sampleModule (.call 4 (.name "g")) ∧
    (visit sampleModule { inClass := some "A" } sampleMethod).current .type = some "A" := by
  obtain ⟨hrestored, -, -, -, hkeeps, hrelates⟩ := scope_restored_iff sampleModule
  refine ⟨by simp [events, eventsAll, sampleMethod, enterOwner, enterMethod], ?_, ?_, ?_⟩
  · rw [enterMethod, hkeeps [enterOwner] 3 4 "f" ["self"] _ (by decide +kernel)]
    decide +kernel
  · rw [hrelates [enterOwner, enterMethod] 4 (.name "g") (by decide +kernel)]
    exact ⟨by decide +kernel, .type, by decide +kernel, by decide +kernel⟩
  · exact (hrestored { inClass := some "A" } sampleMethod .type (by decide +kernel)).mpr
      (Or.inr (by decide +kernel))

/-- A class with an inner class in front of a method, and a function with an inner function in front of a
call. -/
def innerDefinitions : SourceFile :=
  ⟨some "/r/m.py",
    some "class A:\n    class B: pass\n    def f(self): g()\ndef k():\n    def i(): pass\n    h()\n",
    some "/r"⟩

/-- Behind an inner class a method is taken for a function, and behind an inner function a call is lost. -/
theorem inner_definition_ends_scope :
    (visit sampleModule { inClass := some "A" } bareClass).stopped = false ∧
    (visit sampleModule { inClass := some "A" } bareClass).inClass = none ∧
    ∃ f, analyze program? innerDefinitions = .ok f ∧ f.ids = ["m.A", "m.B", "m.f", "m.k", "m.i"] ∧
      f.ends = [("m.f", "g", false)] := by
  refine ⟨by decide +kernel, by decide +kernel, ?_⟩
  have hfound : ((analyze program? innerDefinitions).toOption.map fun f => (f.ids, f.ends)) =
      some (["m.A", "m.B", "m.f", "m.k", "m.i"], [("m.f", "g", false)]) := by decide +kernel
  obtain ⟨f, hf, hfound⟩ := exists_of_map_toOption hfound
  obtain ⟨hids, hends⟩ := Prod.mk.inj hfound
  exact ⟨f, hf, hids, hends⟩

end RepoAtlas.Extract.Python
