import RepoAtlas.Proofs.Files.Reading
import RepoAtlas.Repository.Survey

/-!
# How a full survey ends

After the clone every ending of a full survey is orderly: the survey is returned, or the message of the first
stage that failed is told, and the clone is no longer noted. A failed clone is not told.
-/

namespace RepoAtlas.Repository

open CallGraph

/-- The stages after the clone all succeed, each with its part of a survey. -/
structure Stages.Gives (st : Stages) (path : String) (s : FullSurvey) : Prop where
  location : st.location = .ok s.location
  path : s.path = path
  tree : st.tree = .ok s.tree
  code : st.code s.tree = .ok s.code
  readme : st.readme = .ok s.readme

/-- A stage after the clone fails with a message, and the stages before it do not. -/
inductive Stages.Fails (st : Stages) (message : String) : Prop
  | location (h : st.location = .error message)
  | tree {l : Location} (hlocation : st.location = .ok l) (h : st.tree = .error message)
  | code {l : Location} {t : FileTree} (hlocation : st.location = .ok l) (htree : st.tree = .ok t)
      (h : st.code t = .error message)
  | readme {l : Location} {t : FileTree} {c : CodeSurvey} (hlocation : st.location = .ok l)
      (htree : st.tree = .ok t) (hcode : st.code t = .ok c) (h : st.readme = .error message)

/-- A fault is told with a message. -/
def SurveyFault.Tells (fault : SurveyFault) (message : String) : Prop :=
  fault.told? fullSurveyFailed = some (fullSurveyFailed ++ message)

/-- A survey ends in an orderly way: it gives a result, or tells why it failed. -/
def Orderly (ending : Except SurveyFault FullSurvey) : Prop :=
  (∃ s, ending = .ok s) ∨ ∃ fault message, ending = .error fault ∧ fault.Tells message

/-- A failed stage tells its message. -/
theorem tells_stageFailed_iff {message message' : String} :
    (SurveyFault.stageFailed message).Tells message' ↔ message = message' := by
  simp [SurveyFault.Tells, SurveyFault.told?, SurveyFault.reason]

/-- That nothing is to be removed tells no message. -/
theorem not_tells_nothingToRemove (message : String) : ¬SurveyFault.nothingToRemove.Tells message := by
  simp [SurveyFault.Tells, SurveyFault.told?]

section

variable {st : Stages} {path message : String} {s : FullSurvey}

/-- Stages that give a survey end in it. -/
theorem survey_of_gives (h : st.Gives path s) : st.survey path = .ok s := by
  obtain ⟨location, _, tree, code, readme⟩ := s
  obtain ⟨hlocation, rfl, htree, hcode, hreadme⟩ := h
  simp [Stages.survey, hlocation, htree, hcode, hreadme, bind, Except.bind]

/-- Stages that fail end in the message. -/
theorem survey_of_fails (h : st.Fails message) : st.survey path = .error message := by
  cases h with
  | location h => simp [Stages.survey, h, bind, Except.bind]
  | tree hlocation h => simp [Stages.survey, hlocation, h, bind, Except.bind]
  | code hlocation htree h => simp [Stages.survey, hlocation, htree, h, bind, Except.bind]
  | readme hlocation htree hcode h =>
    simp [Stages.survey, hlocation, htree, hcode, h, bind, Except.bind]

/-- Either all stages after the clone succeed, or there is a first one that fails. -/
theorem gives_or_fails (st : Stages) (path : String) : (∃ s, st.Gives path s) ∨ ∃ message, st.Fails message := by
  cases hlocation : st.location with
  | error message => exact Or.inr ⟨message, .location hlocation⟩
  | ok l =>
    cases htree : st.tree with
    | error message => exact Or.inr ⟨message, .tree hlocation htree⟩
    | ok t =>
      cases hcode : st.code t with
      | error message => exact Or.inr ⟨message, .code hlocation htree hcode⟩
      | ok c =>
        cases hreadme : st.readme with
        | error message => exact Or.inr ⟨message, .readme hlocation htree hcode hreadme⟩
        | ok r => exact Or.inl ⟨⟨l, path, t, c, r⟩, hlocation, rfl, htree, hcode, hreadme⟩

/-- A survey is what the stages give. -/
theorem survey_eq_ok_iff : st.survey path = .ok s ↔ st.Gives path s := by
  refine ⟨fun h => ?_, survey_of_gives⟩
  rcases gives_or_fails st path with ⟨s', hgives⟩ | ⟨message, hfails⟩
  · rw [survey_of_gives hgives] at h
    exact Except.ok.inj h ▸ hgives
  · rw [survey_of_fails hfails] at h
    cases h

/-- A message is that of a stage that fails. -/
theorem survey_eq_error_iff : st.survey path = .error message ↔ st.Fails message := by
  refine ⟨fun h => ?_, survey_of_fails⟩
  rcases gives_or_fails st path with ⟨s, hgives⟩ | ⟨message', hfails⟩
  · rw [survey_of_gives hgives] at h
    cases h
  · rw [survey_of_fails hfails] at h
    exact Except.error.inj h ▸ hfails

end

/-- Removing the clone noted last leaves the others, in their order unless it was noted before. -/
theorem clones_discard_note (w : Workplace) :
    (w.note.discard w.site.root).clones.Perm w.clones ∧
      (w.site.root ∉ w.clones → (w.note.discard w.site.root).clones = w.clones) := by
  have hclones : (w.note.discard w.site.root).clones = (w.clones ++ [w.site.root]).erase w.site.root :=
    rfl
  rw [hclones]
  constructor
  · have hmiddle : (w.clones ++ [w.site.root]).Perm (w.site.root :: w.clones) :=
      List.perm_append_singleton _ _
    simpa using hmiddle.erase w.site.root
  · intro hfresh
    rw [List.erase_append_right _ hfresh]
    simp

/-- After cloning the stages run, and the clone is discarded. -/
theorem survey_of_cloned {w : Workplace} {st : Stages} (hclone : st.clone = .ok ()) (hthere : w.isOccupied) :
    w.survey st = (w.note.discard w.site.root, (st.survey w.site.root).mapError SurveyFault.stageFailed) := by
  have hnote : w.note.site = w.site := rfl
  have hnoted : w.note.isOccupied = true := hthere
  simp only [Workplace.survey, hclone, hnote]
  cases st.survey w.site.root with
  | ok s => rfl
  | error message => rw [if_pos hnoted]; rfl

/-- A full survey gives the result of its stages or the message of the first that failed, and the clone is no
longer noted. Only a failed clone is not told. -/
theorem full_survey_orderly_iff (w : Workplace) (st : Stages) (hthere : w.isOccupied) :
    (Orderly (w.survey st).2 ↔ st.clone = .ok ()) ∧
    (∀ s, (w.survey st).2 = .ok s ↔ st.clone = .ok () ∧ st.Gives w.site.root s) ∧
    (∀ message, (∃ fault, (w.survey st).2 = .error fault ∧ fault.Tells message) ↔
      st.clone = .ok () ∧ st.Fails message) ∧
    (w.survey st).1.clones.Perm w.clones ∧
    (w.site.root ∉ w.clones → (w.survey st).1.clones = w.clones) := by
  cases hclone : st.clone with
  | error cause =>
    have hsurvey : w.survey st = (w, .error .nothingToRemove) := by simp [Workplace.survey, hclone]
    rw [hsurvey]
    simp [Orderly, not_tells_nothingToRemove]
  | ok cloned =>
    have hfails (message : String) : st.Fails message ↔ st.survey w.site.root = .error message :=
      survey_eq_error_iff.symm
    have hended (s : FullSurvey) :
        (Except.ok s : Except String FullSurvey).mapError SurveyFault.stageFailed = .ok s := rfl
    have hstopped (message : String) :
        (Except.error message : Except String FullSurvey).mapError SurveyFault.stageFailed =
          .error (.stageFailed message) := rfl
    rw [survey_of_cloned hclone hthere]
    simp only [← survey_eq_ok_iff, hfails]
    refine ⟨?_, ?_, ?_, clones_discard_note w⟩ <;>
      cases st.survey w.site.root <;>
      simp [Orderly, hended, hstopped, tells_stageFailed_iff]

/-- A place where a repository is cloned to. -/
def cloneYard : Workplace where
  site := { toolbox := {}, files := .directory true [("W", .directory true [
    ("repo", .directory true [("README", .file [])])])], root := "/W/repo" }
  clones := ["/W/other"]

/-- The clone is there. -/
theorem cloneYard_isOccupied : cloneYard.isOccupied = true := by
  have hroot : lookup cloneYard.site.files cloneYard.site.root =
      .ok (["W", "repo"], .directory true [("README", .file [])]) :=
    seek_of_straight? true linkLimit rfl
  rw [Workplace.isOccupied, node?, hroot]
  rfl

/-- A repository that cannot be cloned is neither surveyed nor is the failure told. -/
theorem uncloned_not_orderly :
    cloneYard.isOccupied ∧
      ¬Orderly (surveyAddress cloneYard (.of none none) (some "boom") "o/r").2 := by
  refine ⟨cloneYard_isOccupied, ?_⟩
  rintro (⟨s, hs⟩ | ⟨fault, message, hfault, htold⟩)
  · cases hs
  · obtain rfl := Except.error.inj hfault
    exact not_tells_nothingToRemove message htold

/-- A full survey that cannot read the introduction of a repository tells so and leaves no clone noted. -/
theorem unread_introduction_told :
    cloneYard.isOccupied ∧
      (let st := { stagesAt cloneYard.site (.of none none) none "o/r" with readme := .error "no access" }
       Orderly (cloneYard.survey st).2 ∧ (cloneYard.survey st).1.clones = ["/W/other"]) := by
  have hends := full_survey_orderly_iff cloneYard
    { stagesAt cloneYard.site (.of none none) none "o/r" with readme := .error "no access" }
    cloneYard_isOccupied
  exact ⟨cloneYard_isOccupied, hends.1.mpr rfl, hends.2.2.2.2 (by decide)⟩

end RepoAtlas.Repository
