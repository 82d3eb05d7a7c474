import RepoAtlas.Proofs.Metric.WordMatch

/-!
# Penalties for nesting

A word of control flow costs one and as much again as the nesting that it finds. A line with a word that opens a
level raises the nesting for all lines after it, and only a line at level zero without such a word puts it back.
-/

namespace RepoAtlas.Metric

/-! ## Lines -/

/-- The lines of a text that are neither blank nor comments. -/
def activeLines (source : String) : List String :=
  (Text.split '\n' source).filter fun line => !isIdle line

/-- A line with a word of control flow. -/
def Flows (line : String) : Prop :=
  countMatches [] flowWords line ≠ 0

/-- A line with a word that opens a level of nesting. -/
def Opens (line : String) : Prop :=
  countMatches [] nestingWords line ≠ 0

/-- A line at level zero that opens no level. -/
def Settles (line : String) : Prop :=
  ¬Opens line ∧ level line = 0

/-- What lines cost without nesting: their words of control flow and their Boolean operators. -/
def plainScore : List String → Nat
  | [] => 0
  | line :: rest =>
    countMatches [] flowWords line + countMatches ['&', '|'] ["and", "or"] line + plainScore rest

/-- What is added for nesting, from a given nesting on. -/
def penalty (nesting : Nat) : List String → Nat
  | [] => 0
  | line :: rest => countMatches [] flowWords line * nesting + penalty (nestingAfter nesting line) rest

variable {line : String} {lines : List String} {nesting : Nat}

/-! ## Scores -/

/-- An active line adds operators, and words of control flow by nesting. -/
theorem Reckoning.add_of_not_isIdle (r : Reckoning) (h : isIdle line = false) :
    r.add line =
      { score := r.score + countMatches ['&', '|'] ["and", "or"] line +
          countMatches [] flowWords line * (1 + r.nesting)
        nesting := nestingAfter r.nesting line } := by
  rw [Reckoning.add, h, countMatches_eq_countOperators, countMatches_eq_countWords isPattern_flowWords]
  rfl

/-- Lines add their plain score and the penalty for the nesting that they find. -/
theorem score_foldl_add (r : Reckoning) (lines : List String) :
    (lines.foldl Reckoning.add r).score =
      r.score + plainScore (lines.filter fun line => !isIdle line) +
        penalty r.nesting (lines.filter fun line => !isIdle line) := by
  induction lines generalizing r with
  | nil => rfl
  | cons line lines ih =>
    rw [List.foldl_cons, ih]
    cases hidle : isIdle line with
    | true =>
      have hadd : r.add line = r := by rw [Reckoning.add, hidle]; rfl
      rw [hadd, List.filter_cons_of_neg (by simp [hidle])]
    | false =>
      rw [r.add_of_not_isIdle hidle, List.filter_cons_of_pos (by simp [hidle]), plainScore, penalty, Nat.mul_add,
        Nat.mul_one]
      dsimp only
      omega

/-- The score is what lines cost plainly and what nesting adds. -/
theorem cognitive_eq (source : String) :
    cognitive source = plainScore (activeLines source) + penalty 0 (activeLines source) := by
  rw [cognitive, score_foldl_add]
  exact congrArg (· + _) (Nat.zero_add _)

/-! ## Penalties -/

/-- Every line of control flow has a line before it that settles. -/
def Quiet (lines : List String) : Prop :=
  ∀ between next after, lines = between ++ next :: after → Flows next → ∃ line ∈ between, Settles line

/-- After every line that opens a level, the lines are quiet. -/
def Separated (lines : List String) : Prop :=
  ∀ before line rest, lines = before ++ line :: rest → Opens line → Quiet rest

/-- An empty list of lines is quiet. -/
theorem quiet_nil : Quiet [] :=
  fun between _ _ h => absurd h.symm (List.append_ne_nil_of_right_ne_nil between (List.cons_ne_nil _ _))

/-- Lines are quiet if the first does not flow, and it settles or the rest is quiet. -/
theorem quiet_cons_iff : Quiet (line :: lines) ↔ ¬Flows line ∧ (Settles line ∨ Quiet lines) := by
  constructor
  · intro h
    refine ⟨fun hflows => ?_, ?_⟩
    · obtain ⟨_, hmem, -⟩ := h [] line lines rfl hflows
      cases hmem
    · refine or_iff_not_imp_left.mpr fun hsettles between next after heq hflows => ?_
      obtain ⟨other, hmem, hother⟩ := h (line :: between) next after (by rw [heq, List.cons_append]) hflows
      rcases List.mem_cons.mp hmem with rfl | hmem
      · exact absurd hother hsettles
      · exact ⟨other, hmem, hother⟩
  · rintro ⟨hline, hrest⟩ between next after heq hflows
    rcases between with - | ⟨first, between⟩
    · obtain ⟨rfl, -⟩ := List.cons.inj heq
      exact absurd hflows hline
    · obtain ⟨hfirst, htail⟩ := List.cons.inj heq
      rcases hrest with hsettles | hquiet
      · exact ⟨first, List.mem_cons_self, hfirst ▸ hsettles⟩
      · obtain ⟨other, hmem, hother⟩ := hquiet between next after htail hflows
        exact ⟨other, List.mem_cons_of_mem _ hmem, hother⟩

/-- An empty list of lines is separated. -/
theorem separated_nil : Separated [] :=
  fun before _ _ h => absurd h.symm (List.append_ne_nil_of_right_ne_nil before (List.cons_ne_nil _ _))

/-- Lines are separated if the rest is, and is quiet after an opening first line. -/
theorem separated_cons_iff : Separated (line :: lines) ↔ (Opens line → Quiet lines) ∧ Separated lines := by
  constructor
  · intro h
    refine ⟨h [] line lines rfl, fun before other rest heq => ?_⟩
    exact h (line :: before) other rest (by rw [heq, List.cons_append])
  · rintro ⟨hline, hrest⟩ before other rest heq
    rcases before with - | ⟨first, before⟩
    · cases heq
      exact hline
    · exact hrest before other rest (List.cons.inj heq).2

/-- No nesting is left after a line that settles, or after one that opens no level where there was none. -/
theorem nestingAfter_eq_zero_iff : nestingAfter nesting line = 0 ↔ Settles line ∨ ¬Opens line ∧ nesting = 0 := by
  rw [Settles, Opens, countMatches_eq_countWords isPattern_nestingWords, nestingAfter]
  split
  · omega
  · split <;> tauto

/-- Nothing is added for nesting exactly if every line of control flow is reached without nesting. -/
theorem penalty_eq_zero_iff : penalty nesting lines = 0 ↔ (nesting = 0 ∨ Quiet lines) ∧ Separated lines := by
  induction lines generalizing nesting with
  | nil => simp [penalty, quiet_nil, separated_nil]
  | cons line lines ih =>
    have hopens : Settles line → ¬Opens line := And.left
    have hflows : countMatches [] flowWords line * nesting = 0 ↔ nesting = 0 ∨ ¬Flows line := by
      rw [Nat.mul_eq_zero, Flows, not_not, or_comm]
    rw [penalty, Nat.add_eq_zero_iff, hflows, ih, nestingAfter_eq_zero_iff, quiet_cons_iff, separated_cons_iff]
    grind

/-! ## Lines without indentation -/

/-- A line that begins with no blank is at level zero exactly if it has no tabulator. -/
theorem level_eq_zero_iff (hflush : line.toList.head?.any Text.isBlank = false) :
    level line = 0 ↔ '\t' ∉ line.toList := by
  have hindent : Text.indent line = 0 := by
    unfold Text.indent
    cases hcs : line.toList with
    | nil => rfl
    | cons c cs =>
      rw [List.takeWhile_cons_of_neg (by simpa [hcs] using hflush)]
      rfl
  rw [level, Text.countChar, hindent]
  split
  · rename_i htab
    rw [List.count_eq_zero]
  · rename_i htab
    simpa using htab

/-- Where no line begins with a blank, nothing is added for nesting exactly if between a line that opens a
level and each later line of control flow there is one without a tab that opens none. -/
theorem cognitive_eq_plainScore_iff (source : String)
    (hflush : ∀ line ∈ Text.split '\n' source, line.toList.head?.any Text.isBlank = false) :
    plainScore (activeLines source) ≤ cognitive source ∧
      (cognitive source = plainScore (activeLines source) ↔
        ∀ before line between next after,
          activeLines source = before ++ line :: (between ++ next :: after) → Opens line → Flows next →
            ∃ other ∈ between, ¬Opens other ∧ '\t' ∉ other.toList) := by
  have hseparated : cognitive source = plainScore (activeLines source) ↔ Separated (activeLines source) := by
    rw [cognitive_eq, Nat.add_eq_left, penalty_eq_zero_iff, and_iff_right (Or.inl rfl)]
  have hsettles : ∀ other ∈ activeLines source, (Settles other ↔ ¬Opens other ∧ '\t' ∉ other.toList) :=
    fun other hother => and_congr_right' (level_eq_zero_iff (hflush other (List.mem_filter.mp hother).1))
  refine ⟨cognitive_eq source ▸ Nat.le_add_right _ _, hseparated.trans ⟨?_, ?_⟩⟩
  · intro h before line between next after heq hopens hflows
    obtain ⟨other, hmem, hother⟩ := h before line _ heq hopens between next after rfl hflows
    exact ⟨other, hmem, (hsettles other (by simp [heq, hmem])).mp hother⟩
  · rintro h before line rest heq hopens between next after rfl hflows
    obtain ⟨other, hmem, hother⟩ := h before line between next after heq hopens hflows
    exact ⟨other, hmem, (hsettles other (by simp [heq, hmem])).mpr hother⟩

/-- After a plain line, an alternative costs no more than one. -/
theorem separated_alternative_plain :
    (∀ line ∈ Text.split '\n' "if a and b:\nc()\nelse:", line.toList.head?.any Text.isBlank = false) ∧
      cognitive "if a and b:\nc()\nelse:" = 3 ∧
      ∀ before line between next after,
        activeLines "if a and b:\nc()\nelse:" = before ++ line :: (between ++ next :: after) → Opens line → Flows next →
          ∃ other ∈ between, ¬Opens other ∧ '\t' ∉ other.toList := by
  have hflush : ∀ line ∈ Text.split '\n' "if a and b:\nc()\nelse:", line.toList.head?.any Text.isBlank = false := by
    decide +kernel
  have hscore : cognitive "if a and b:\nc()\nelse:" = 3 := by decide +kernel
  have hplain : plainScore (activeLines "if a and b:\nc()\nelse:") = 3 := by decide +kernel
  exact ⟨hflush, hscore, (cognitive_eq_plainScore_iff _ hflush).2.mp (hscore.trans hplain.symm)⟩

/-- The second of two conditions at the same level is taken as nested in the first. -/
theorem second_condition_nested :
    (∀ line ∈ Text.split '\n' "if (a) f();\nif (b) g();", line.toList.head?.any Text.isBlank = false) ∧
      plainScore (activeLines "if (a) f();\nif (b) g();") = 2 ∧ cognitive "if (a) f();\nif (b) g();" = 3 := by
  refine ⟨?_, ?_, ?_⟩ <;> decide +kernel

end RepoAtlas.Metric
