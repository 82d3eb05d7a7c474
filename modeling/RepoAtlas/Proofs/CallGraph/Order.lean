import Mathlib.Data.List.Find
import RepoAtlas.Proofs.CallGraph.Matching

/-!
# The order of files

Files that are analysed side by side are gathered in any order, and of several components with one name, or
files that tell the methods of a type, the last counts.

Every look at the components is a question for the last one that answers it. A question is decided if all
components under the keys of its answers come from one file; then the order does not matter to it.
-/

namespace RepoAtlas.CallGraph

open Extract

variable {rs rs' : List FileResult}

/-- The components of files that are gathered in their order. -/
def componentsOf (rs : List FileResult) : Components :=
  (gather {} rs).functions

/-- A question about a component and its key. -/
abbrev Question := String × Component → Bool

/-- The keys under which some file has a component that answers a question. -/
def holders (rs : List FileResult) (q : Question) : List String :=
  ((rs.flatMap FileResult.components).filter q).map (·.1)

/-- At most one file has components under the keys of the answers to a question. -/
def Decided (rs : List FileResult) (q : Question) : Prop :=
  rs.Pairwise fun f f' =>
    (∀ e ∈ f.components, e.1 ∉ holders rs q) ∨ ∀ e ∈ f'.components, e.1 ∉ holders rs q

instance (rs : List FileResult) (q : Question) : Decidable (Decided rs q) :=
  inferInstanceAs (Decidable (rs.Pairwise _))

/-- Parts of which at most one is not empty can be joined in any order. -/
theorem flatMap_eq_of_perm {β : Type} {part : FileResult → List β}
    (h : rs.Pairwise fun f f' => part f = [] ∨ part f' = []) (hperm : rs.Perm rs') :
    rs.flatMap part = rs'.flatMap part := by
  have hsymm : ∀ {f f' : FileResult}, part f = [] ∨ part f' = [] → part f' = [] ∨ part f = [] :=
    Or.symm
  induction hperm with
  | nil => rfl
  | cons f _ ih => rw [List.flatMap_cons, List.flatMap_cons, ih (List.pairwise_cons.mp h).2]
  | swap f f' l =>
    have hone := (List.pairwise_cons.mp h).1 f List.mem_cons_self
    simp only [List.flatMap_cons]
    rcases hone with hempty | hempty
    · simp [hempty]
    · simp [hempty]
  | trans hfirst _ ih₁ ih₂ => exact (ih₁ h).trans (ih₂ ((hfirst.pairwise_iff hsymm).mp h))

/-- Values on which all that have one agree are found in any order. -/
theorem findSome?_eq_of_perm {β : Type} {value : FileResult → Option β}
    (h : rs.Pairwise fun f f' => ∀ x y, value f = some x → value f' = some y → x = y)
    (hperm : rs.Perm rs') : rs.findSome? value = rs'.findSome? value := by
  induction hperm with
  | nil => rfl
  | cons f _ ih => rw [List.findSome?_cons, List.findSome?_cons, ih (List.pairwise_cons.mp h).2]
  | swap f f' l =>
    have hagree := (List.pairwise_cons.mp h).1 f List.mem_cons_self
    simp only [List.findSome?_cons]
    cases hf : value f with
    | none => rfl
    | some x =>
      cases hf' : value f' with
      | none => rfl
      | some y => exact congrArg some (hagree y x hf' hf)
  | trans hfirst _ ih₁ ih₂ =>
    exact (ih₁ h).trans (ih₂ ((hfirst.pairwise_iff fun hxy x y hx hy => (hxy y x hy hx).symm).mp h))

/-- The components under the keys of answers are put in from the files that have them. -/
theorem filter_entries_componentsOf (p : String → Bool) (rs : List FileResult) :
    (componentsOf rs).entries.filter (fun e => p e.1) =
      (Keyed.empty.insertAll
        (rs.flatMap fun f => f.components.filter fun e => p e.1)).entries := by
  have hempty : (Keyed.empty : Components).entries =
      ({} : CallGraph).functions.entries.filter fun e => p e.1 := rfl
  rw [componentsOf, functions_gather, Keyed.filter_entries_insertAll p hempty, List.filter_flatMap]

/-- A component comes from a file. -/
theorem exists_file_of_mem_componentsOf {e : String × Component}
    (h : e ∈ (componentsOf rs).entries) : e ∈ rs.flatMap FileResult.components := by
  rw [componentsOf, functions_gather] at h
  exact (Keyed.mem_entries_insertAll h).resolve_left List.not_mem_nil

/-- A decided question has one answer in any order. -/
theorem answer_eq_of_decided {q : Question} (h : Decided rs q) (hperm : rs.Perm rs') :
    (componentsOf rs).entries.reverse.find? q = (componentsOf rs').entries.reverse.find? q := by
  have hkept : ∀ ts : List FileResult, rs.Perm ts → (componentsOf ts).entries.reverse.find? q =
      ((componentsOf ts).entries.filter fun e => decide (e.1 ∈ holders rs q)).reverse.find? q := by
    intro ts hts
    rw [← List.filter_reverse, List.find?_filter]
    refine List.find?_congr fun e he => ?_
    have hlisted := exists_file_of_mem_componentsOf (List.mem_reverse.mp he)
    have hmem : e ∈ rs.flatMap FileResult.components := (hts.flatMap_right _).mem_iff.mpr hlisted
    by_cases hq : q e = true
    · have hholder : e.1 ∈ holders rs q := List.mem_map_of_mem (List.mem_filter.mpr ⟨hmem, hq⟩)
      simp [hq, hholder]
    · simp [hq]
  have hparts : rs.Pairwise fun f f' =>
      (f.components.filter fun e => decide (e.1 ∈ holders rs q)) = [] ∨
        (f'.components.filter fun e => decide (e.1 ∈ holders rs q)) = [] := by
    refine h.imp fun hone => hone.imp ?_ ?_
    · exact fun hnone => List.filter_eq_nil_iff.mpr fun e he => by simpa using hnone e he
    · exact fun hnone => List.filter_eq_nil_iff.mpr fun e he => by simpa using hnone e he
  rw [hkept rs (List.Perm.refl rs), hkept rs' hperm,
    filter_entries_componentsOf (fun k => decide (k ∈ holders rs q)) rs,
    filter_entries_componentsOf (fun k => decide (k ∈ holders rs q)) rs', flatMap_eq_of_perm hparts hperm]

/-- Whether a component goes by a name everywhere. -/
def goesBy (n : String) : Question :=
  fun e => decide (n ∈ wideNames e.1 e.2)

/-- Whether a component goes by a name in a directory. -/
def goesByIn (directory n : String) : Question :=
  fun e => decide ((directory, n) ∈ (localNames e.2).map fun m => (directoryOf e.2, m))

/-- Whether a component stands under a key. -/
def standsUnder (k : String) : Question :=
  fun e => decide (e.1 = k)

/-- Whether a component is of a kind and name. -/
def isOf (kind name : String) : Question :=
  fun e => e.2.kind = kind && e.2.name = name

/-- A name leads to the last component that goes by it. -/
theorem lookup_wideTable (cs : Components) (n : String) :
    (wideTable cs).lookup n = (cs.entries.reverse.find? (goesBy n)).map (·.1) :=
  Keyed.lookup_reverse_flatMap (fun e : String × Component => wideNames e.1 e.2) (·.1) n cs.entries

/-- A local name leads to the last one in the directory. -/
theorem lookup_localTable (cs : Components) (directory n : String) :
    (localTable cs).lookup (directory, n) = (cs.entries.reverse.find? (goesByIn directory n)).map (·.1) := by
  refine Eq.trans ?_ (Keyed.lookup_reverse_flatMap
    (fun e : String × Component => (localNames e.2).map fun m => (directoryOf e.2, m)) (·.1) (directory, n)
    cs.entries)
  simp only [localTable, List.map_map, Function.comp_def]

/-- What stands under a key is the last component that does. -/
theorem get?_eq_find? (cs : Components) (k : String) :
    cs.get? k = (cs.entries.reverse.find? (standsUnder k)).map (·.2) := by
  cases hfind : cs.entries.reverse.find? (standsUnder k) with
  | none =>
    rw [Option.map_none, Keyed.get?, List.lookup_eq_none_iff]
    intro e he
    have hne := List.find?_eq_none.mp hfind e (List.mem_reverse.mpr he)
    exact bne_iff_ne.mpr fun heq => hne (by simp [standsUnder, heq])
  | some e =>
    have hkey : e.1 = k := by simpa [standsUnder] using List.find?_some hfind
    rw [Option.map_some, Keyed.get?_eq_some_iff, ← hkey]
    exact List.mem_reverse.mp (List.mem_of_find?_eq_some hfind)

/-- What a relationship asks is decided: what stands under its caller, and what goes by the names of its
callee everywhere and in the directory of the caller. -/
structure Clear (rs : List FileResult) (r : Relationship) : Prop where
  caller : Decided rs (standsUnder r.caller)
  everywhere : ∀ n ∈ r.callee :: (shortForm? r.callee).toList, Decided rs (goesBy n)
  nearby : ∀ f ∈ rs, ∀ e ∈ f.components, e.1 = r.caller →
    ∀ n ∈ [r.callee, Text.afterLast '.' r.callee], Decided rs (goesByIn (directoryOf e.2) n)

/-- A clear relationship has one target in any order. -/
theorem targetOf?_eq_of_clear {r : Relationship} (h : Clear rs r) (hperm : rs.Perm rs') :
    targetOf? (componentsOf rs) r = targetOf? (componentsOf rs') r := by
  have hwide : ∀ n ∈ r.callee :: (shortForm? r.callee).toList,
      (wideTable (componentsOf rs)).lookup n = (wideTable (componentsOf rs')).lookup n := by
    intro n hn
    rw [lookup_wideTable, lookup_wideTable, answer_eq_of_decided (h.everywhere n hn) hperm]
  have hget : (componentsOf rs).get? r.caller = (componentsOf rs').get? r.caller := by
    rw [get?_eq_find?, get?_eq_find?, answer_eq_of_decided h.caller hperm]
  have hnear : ∀ n ∈ [r.callee, Text.afterLast '.' r.callee],
      ((componentsOf rs).get? r.caller).bind
        (fun c => (localTable (componentsOf rs)).lookup (directoryOf c, n)) =
      ((componentsOf rs').get? r.caller).bind
        (fun c => (localTable (componentsOf rs')).lookup (directoryOf c, n)) := by
    intro n hn
    rw [← hget]
    cases hcaller : (componentsOf rs).get? r.caller with
    | none => rfl
    | some c =>
      have hentry := (componentsOf rs).get?_eq_some_iff.mp hcaller
      obtain ⟨f, hf, he⟩ := List.mem_flatMap.mp (exists_file_of_mem_componentsOf hentry)
      rw [Option.bind_some, Option.bind_some, lookup_localTable, lookup_localTable,
        answer_eq_of_decided (h.nearby f hf (r.caller, c) he rfl n hn) hperm]
  have hshort : ((shortForm? r.callee).bind fun n => (wideTable (componentsOf rs)).lookup n) =
      (shortForm? r.callee).bind fun n => (wideTable (componentsOf rs')).lookup n := by
    cases hform : shortForm? r.callee with
    | none => rfl
    | some n => exact hwide n (by simp [hform])
  simp only [targetOf?, target?, hwide r.callee List.mem_cons_self, hshort,
    hnear r.callee List.mem_cons_self, hnear (Text.afterLast '.' r.callee) (by simp)]

/-- Tables that have the same values for the keys that they share. -/
def Agree (t u : MethodSets) : Prop :=
  ∀ e ∈ t.entries, ∀ e' ∈ u.entries, e.1 = e'.1 → e.2 = e'.2

instance (t u : MethodSets) : Decidable (Agree t u) :=
  inferInstanceAs (Decidable (∀ e ∈ t.entries, ∀ e' ∈ u.entries, _))

/-- Files whose order makes no difference: what their relationships ask is decided, they agree on what is
resolved and on methods, and the nodes of types with methods are decided. -/
structure Orderless (rs : List FileResult) : Prop where
  clear : ∀ f ∈ rs, ∀ r ∈ f.relationships, Clear rs r
  flags : rs.Pairwise fun f f' => ∀ r ∈ f.relationships, ∀ r' ∈ f'.relationships,
    sameEnds r r' = true → r.resolved = r'.resolved
  structs : rs.Pairwise fun f f' => Agree f.found.structs f'.found.structs
  interfaces : rs.Pairwise fun f f' => Agree f.found.interfaces f'.found.interfaces
  structNodes : ∀ f ∈ rs, ∀ e ∈ f.found.structs.entries, Decided rs (isOf "struct" e.1)
  interfaceNodes : ∀ f ∈ rs, ∀ e ∈ f.found.interfaces.entries, Decided rs (isOf "interface" e.1)

/-- If files agree, the methods told last are the same in any order. -/
theorem lastTold_eq_of_perm {table : Go.FileFindings → MethodSets} {type : String}
    (h : rs.Pairwise fun f f' => Agree (table f.found) (table f'.found)) (hperm : rs.Perm rs') :
    lastTold table rs type = lastTold table rs' type := by
  have hvalues : rs.Pairwise fun f f' => ∀ x y, (table f.found).get? type = some x →
      (table f'.found).get? type = some y → x = y := by
    refine h.imp fun hagree x y hx hy => ?_
    exact hagree (type, x) ((Keyed.get?_eq_some_iff _).mp hx) (type, y)
      ((Keyed.get?_eq_some_iff _).mp hy) rfl
  have hreverse : rs.reverse.Pairwise fun f f' => ∀ x y, (table f.found).get? type = some x →
      (table f'.found).get? type = some y → x = y := by
    rw [List.pairwise_reverse]
    exact hvalues.imp fun hagree x y hx hy => (hagree y x hy hx).symm
  exact findSome?_eq_of_perm hreverse
    ((List.reverse_perm rs).trans (hperm.trans (List.reverse_perm rs').symm))

/-- What is told last is told by a file. -/
theorem exists_file_of_lastTold {table : Go.FileFindings → MethodSets} {type : String} {methods : List String}
    (h : lastTold table rs type = some methods) : ∃ f ∈ rs, (type, methods) ∈ (table f.found).entries := by
  obtain ⟨f, hf, hget⟩ := List.exists_of_findSome?_eq_some h
  exact ⟨f, List.mem_reverse.mp hf, (Keyed.get?_eq_some_iff _).mp hget⟩

/-- The relationships that matches add to the components of files. -/
def implementations (rs : List FileResult) : List Relationship :=
  (gather {} rs).resolve.satisfied.filterMap (implementation? (componentsOf rs))

/-- Where order does not matter, implementations stay. -/
theorem mem_implementations_of_perm (h : Orderless rs) (hperm : rs.Perm rs') {r : Relationship} :
    r ∈ implementations rs ↔ r ∈ implementations rs' := by
  have hsatisfied : ∀ pair, pair ∈ (gather {} rs).resolve.satisfied ↔
      pair ∈ (gather {} rs').resolve.satisfied := by
    rintro ⟨s, i⟩
    rw [mem_satisfied_gather, mem_satisfied_gather, lastTold_eq_of_perm h.structs hperm,
      lastTold_eq_of_perm h.interfaces hperm]
  have hsame : ∀ pair ∈ (gather {} rs).resolve.satisfied,
      implementation? (componentsOf rs) pair = implementation? (componentsOf rs') pair := by
    rintro ⟨s, i⟩ hpair
    obtain ⟨wanted, hwanted, hne, hall⟩ := mem_satisfied_gather.mp hpair
    obtain ⟨f, hf, hinterface⟩ := exists_file_of_lastTold hwanted
    obtain ⟨m, hm⟩ := List.exists_mem_of_ne_nil wanted hne
    have hstructs : ∃ methods, lastTold (·.structs) rs s = some methods := by
      refine Option.ne_none_iff_exists'.mp fun hnone => ?_
      simpa [hnone] using hall m hm
    obtain ⟨methods, hmethods⟩ := hstructs
    obtain ⟨f', hf', hstruct⟩ := exists_file_of_lastTold hmethods
    have hs : lastOf? (componentsOf rs) "struct" s = lastOf? (componentsOf rs') "struct" s :=
      answer_eq_of_decided (h.structNodes f' hf' (s, methods) hstruct) hperm
    have hi : lastOf? (componentsOf rs) "interface" i = lastOf? (componentsOf rs') "interface" i :=
      answer_eq_of_decided (h.interfaceNodes f hf (i, wanted) hinterface) hperm
    simp only [implementation?, lastNamed?, hs, hi]
  simp only [implementations, List.mem_filterMap]
  constructor
  · rintro ⟨pair, hpair, hr⟩
    exact ⟨pair, (hsatisfied pair).mp hpair, (hsame pair hpair).symm.trans hr⟩
  · rintro ⟨pair, hpair, hr⟩
    have hpair' := (hsatisfied pair).mpr hpair
    exact ⟨pair, hpair', (hsame pair hpair').trans hr⟩

/-- The flag of the first relationship between two ends. -/
def flagBetween (a b : String) (rs : List Relationship) : Option Bool :=
  (rs.find? (sameEnds { caller := a, callee := b })).map (·.resolved)

/-- Between two ends, what comes first in a list counts first. -/
theorem flagBetween_append (a b : String) (rs ts : List Relationship) :
    flagBetween a b (rs ++ ts) = (flagBetween a b rs).or (flagBetween a b ts) := by
  rw [flagBetween, List.find?_append, Option.map_or]
  rfl

/-- Of relationships that are all resolved it counts only whether there is one. -/
theorem flagBetween_eq_some_iff {a b : String} {x : Bool} {rs : List Relationship} (h : ∀ r ∈ rs, r.resolved = true) :
    flagBetween a b rs = some x ↔ x = true ∧ ∃ r ∈ rs, r.caller = a ∧ r.callee = b := by
  rw [flagBetween, Option.map_eq_some_iff]
  constructor
  · rintro ⟨r, hfind, rfl⟩
    have hmem := List.mem_of_find?_eq_some hfind
    exact ⟨h r hmem, r, hmem, sameEnds_iff.mp (List.find?_some hfind)⟩
  · rintro ⟨rfl, r, hr, hcaller, hcallee⟩
    cases hfind : rs.find? (sameEnds { caller := a, callee := b }) with
    | none =>
      exact absurd (sameEnds_iff.mpr ⟨hcaller, hcallee⟩) (List.find?_eq_none.mp hfind r hr)
    | some r' => exact ⟨r', rfl, h r' (List.mem_of_find?_eq_some hfind)⟩

/-- Implementations are resolved. -/
theorem resolved_of_mem_implementations {r : Relationship} (h : r ∈ implementations rs) : r.resolved = true := by
  obtain ⟨pair, -, hpair⟩ := List.mem_filterMap.mp h
  exact resolved_of_implementation? hpair

/-- The ends of relationships and whether they are resolved. -/
def triples (rs : List Relationship) : List (String × String × Bool) :=
  rs.map fun r => (r.caller, r.callee, r.resolved)

/-- Without repetitions, relationships tell the flag of the first between any two ends. -/
theorem mem_triples_distinct {a b : String} {x : Bool} {rs : List Relationship} :
    (a, b, x) ∈ triples (distinct [] rs) ↔ flagBetween a b rs = some x := by
  simp only [triples, List.mem_map, mem_distinct_iff, List.not_mem_nil, not_false_eq_true, true_and,
    Prod.mk.injEq, flagBetween, Option.map_eq_some_iff]
  constructor
  · rintro ⟨r, hfind, hcaller, hcallee, hx⟩
    exact ⟨r, sameEnds_congr (r := { caller := a, callee := b }) hcaller hcallee ▸ hfind, hx⟩
  · rintro ⟨r, hfind, hx⟩
    obtain ⟨hcaller, hcallee⟩ := sameEnds_iff.mp (List.find?_some hfind)
    exact ⟨r, (sameEnds_congr hcaller hcallee).symm ▸ hfind, hcaller, hcallee, hx⟩

/-- The relationships of a file after resolution among the components of all files. -/
def resolvedOf (rs : List FileResult) (f : FileResult) : List Relationship :=
  f.relationships.map (resolvedIn (componentsOf rs))

/-- Files that agree on what is resolved still do so after resolution. -/
theorem flagBetween_agree (h : Orderless rs) (a b : String) :
    rs.Pairwise fun f f' => ∀ x y, flagBetween a b (resolvedOf rs f) = some x →
      flagBetween a b (resolvedOf rs f') = some y → x = y := by
  refine h.flags.imp fun {f f'} hagree x y hx hy => ?_
  have horigin : ∀ {f : FileResult} {x : Bool}, flagBetween a b (resolvedOf rs f) = some x →
      ∃ r ∈ f.relationships, (resolvedIn (componentsOf rs) r).caller = a ∧
        (resolvedIn (componentsOf rs) r).callee = b ∧
        (resolvedIn (componentsOf rs) r).resolved = x := by
    intro f x hx
    obtain ⟨r', hfind, hx⟩ := Option.map_eq_some_iff.mp hx
    obtain ⟨r, hr, rfl⟩ := List.mem_map.mp (List.mem_of_find?_eq_some hfind)
    obtain ⟨hcaller, hcallee⟩ := sameEnds_iff.mp (List.find?_some hfind)
    exact ⟨r, hr, hcaller, hcallee, hx⟩
  obtain ⟨r, hr, hcaller, hcallee, rfl⟩ := horigin hx
  obtain ⟨r', hr', hcaller', hcallee', rfl⟩ := horigin hy
  by_cases hkey : b ∈ (componentsOf rs).keys
  · rw [resolved_of_mem_keys (hcallee ▸ hkey), resolved_of_mem_keys (hcallee' ▸ hkey)]
  · -- Neither of the two refers to a component, so both are as their files tell them.
    have hunchanged : ∀ {r : Relationship}, (resolvedIn (componentsOf rs) r).callee = b →
        resolvedIn (componentsOf rs) r = r := by
      intro r hb
      cases htarget : targetOf? (componentsOf rs) r with
      | none => simp only [resolvedIn, htarget]
      | some id =>
        simp only [resolvedIn, htarget] at hb
        exact absurd (hb ▸ mem_keys_of_target? htarget) hkey
    have hfirst := hunchanged hcallee
    have hsecond := hunchanged hcallee'
    rw [hfirst] at hcaller hcallee ⊢
    rw [hsecond] at hcaller' hcallee' ⊢
    exact hagree r hr r' hr' (by simp [sameEnds, hcaller, hcallee, hcaller', hcallee'])

/-- The relationships are those of the files, then the implementations. -/
theorem relationships_matched_gather (rs : List FileResult) :
    (gather {} rs).resolve.matchInterfaces.relationships = rs.flatMap (resolvedOf rs) ++ implementations rs := by
  have hrelationships : (gather {} rs).relationships = rs.flatMap FileResult.relationships :=
    relationships_gather {} rs
  rw [relationships_matched, hrelationships, List.map_flatMap]
  rfl

/-- Whether two components are related stays in any order. -/
theorem flagBetween_eq_of_perm (h : Orderless rs) (hperm : rs.Perm rs') (a b : String) :
    flagBetween a b (gather {} rs).resolve.matchInterfaces.relationships =
      flagBetween a b (gather {} rs').resolve.matchInterfaces.relationships := by
  have hfiles : ∀ ts : List FileResult, flagBetween a b (ts.flatMap (resolvedOf rs)) =
      ts.findSome? fun f => flagBetween a b (resolvedOf rs f) := by
    intro ts
    rw [flagBetween, List.find?_flatMap, List.map_findSome?]
    rfl
  have hresolved : rs'.flatMap (resolvedOf rs) = rs'.flatMap (resolvedOf rs') := by
    refine List.flatMap_congr fun f hf => List.map_congr_left fun r hr => ?_
    simp only [resolvedIn, targetOf?_eq_of_clear (h.clear f (hperm.mem_iff.mpr hf) r hr) hperm]
  have himplements : flagBetween a b (implementations rs) = flagBetween a b (implementations rs') := by
    apply Option.ext
    intro x
    rw [flagBetween_eq_some_iff fun r hr => resolved_of_mem_implementations hr,
      flagBetween_eq_some_iff fun r hr => resolved_of_mem_implementations hr]
    simp only [mem_implementations_of_perm h hperm]
  rw [relationships_matched_gather, relationships_matched_gather, flagBetween_append, flagBetween_append, ← hresolved,
    hfiles, hfiles, himplements, findSome?_eq_of_perm (flagBetween_agree h a b) hperm]

/-- The analysis of files that are gathered in their order. -/
def analysisOf (rs : List FileResult) : CallGraph :=
  (gather {} rs).resolve.matchInterfaces.deduplicate

/-- The keys are those of the files. -/
theorem mem_keys_analysisOf {k : String} :
    k ∈ (analysisOf rs).functions.keys ↔ ∃ f ∈ rs, ∃ e ∈ f.components, e.1 = k := by
  have hkeys : (analysisOf rs).functions.keys = (componentsOf rs).keys :=
    keys_matched (gather {} rs)
  rw [hkeys, componentsOf, functions_gather, Keyed.mem_keys_insertAll]
  simp only [List.mem_map, List.mem_flatMap]
  constructor
  · rintro (hempty | ⟨e, ⟨f, hf, he⟩, rfl⟩)
    · cases hempty
    · exact ⟨f, hf, e, he, rfl⟩
  · rintro ⟨f, hf, e, he, rfl⟩
    exact Or.inr ⟨e, ⟨f, hf, he⟩, rfl⟩

/-- In every order of the files the same components are found and clear relationships refer to the same ones;
where order makes no difference, all relationships are the same. -/
theorem analysis_order_irrelevant (hperm : rs.Perm rs') :
    (∀ k, k ∈ (analysisOf rs).functions.keys ↔ k ∈ (analysisOf rs').functions.keys) ∧
    (∀ r, Clear rs r → targetOf? (componentsOf rs) r = targetOf? (componentsOf rs') r) ∧
    (Orderless rs → ∀ t, t ∈ triples (analysisOf rs).relationships ↔
      t ∈ triples (analysisOf rs').relationships) := by
  refine ⟨fun k => ?_, fun r hclear => targetOf?_eq_of_clear hclear hperm, fun horder t => ?_⟩
  · simp only [mem_keys_analysisOf, hperm.mem_iff]
  · obtain ⟨a, b, x⟩ := t
    exact mem_triples_distinct.trans
      (flagBetween_eq_of_perm horder hperm a b ▸ mem_triples_distinct.symm)

/-- A component of a file, by its kind and its name. -/
def member (file kind name : String) : Component :=
  { id := file ++ "." ++ name, name := name, kind := kind, filePath := file, relativePath := file }

/-- A file with functions and calls between names. -/
def script (file : String) (names : List String) (calls : List (String × String)) : FileResult :=
  { place := file
    found := { findings :=
      { components := names.map (member file "function")
        relationships := calls.map fun (a, b) => { caller := file ++ "." ++ a, callee := b } } } }

/-- A name that two files of one directory define is resolved by the order in which they come. -/
theorem namesakes_order_matters :
    [script "a" ["f"] [], script "b" ["f"] [], script "c" ["main"] [("main", "f")]].Perm
      [script "b" ["f"] [], script "a" ["f"] [], script "c" ["main"] [("main", "f")]] ∧
    triples (analysisOf [script "a" ["f"] [], script "b" ["f"] [],
      script "c" ["main"] [("main", "f")]]).relationships = [("c.main", "b.f", true)] ∧
    triples (analysisOf [script "b" ["f"] [], script "a" ["f"] [],
      script "c" ["main"] [("main", "f")]]).relationships = [("c.main", "a.f", true)] := by
  exact ⟨List.Perm.swap _ _ _, by decide +kernel, by decide +kernel⟩

/-- Files of a package: a struct with its method and a caller of a function elsewhere, that function,
and an interface that the struct satisfies. -/
def pumps : List FileResult :=
  [{ place := "a"
     found := { findings := { components := [member "a" "struct" "Pump", member "a" "function" "run"]
                              relationships := [{ caller := "a.run", callee := "start" },
                                { caller := "a.run", callee := "missing" }] }
                structs := Keyed.ofList [("Pump", ["Stop#0"])] } },
    script "b" ["start"] [("start", "run"), ("start", "elsewhere")],
    { place := "c"
      found := { findings := { components := [member "c" "interface" "Stopper"] }
                 interfaces := Keyed.ofList [("Stopper", ["Stop#0"])] } }]

/-- The order of these files makes no difference. -/
theorem orderless_pumps : Orderless pumps where
  clear := by
    have hcaller : ∀ f ∈ pumps, ∀ r ∈ f.relationships, Decided pumps (standsUnder r.caller) := by
      decide +kernel
    have heverywhere : ∀ f ∈ pumps, ∀ r ∈ f.relationships,
        ∀ n ∈ r.callee :: (shortForm? r.callee).toList, Decided pumps (goesBy n) := by
      decide +kernel
    have hnearby : ∀ f ∈ pumps, ∀ r ∈ f.relationships, ∀ f' ∈ pumps, ∀ e ∈ f'.components,
        e.1 = r.caller → ∀ n ∈ [r.callee, Text.afterLast '.' r.callee],
          Decided pumps (goesByIn (directoryOf e.2) n) := by
      decide +kernel
    exact fun f hf r hr => ⟨hcaller f hf r hr, heverywhere f hf r hr, hnearby f hf r hr⟩
  flags := by decide +kernel
  structs := by decide +kernel
  interfaces := by decide +kernel
  structNodes := by decide +kernel
  interfaceNodes := by decide +kernel

/-- These files have the same relationships in the opposite order. -/
theorem pumps_order_irrelevant :
    pumps.Perm pumps.reverse ∧ Orderless pumps ∧
    triples (analysisOf pumps).relationships = [("a.run", "b.start", true), ("a.run", "missing", false),
      ("b.start", "a.run", true), ("b.start", "elsewhere", false), ("a.Pump", "c.Stopper", true)] ∧
    ∀ t, t ∈ triples (analysisOf pumps).relationships ↔
      t ∈ triples (analysisOf pumps.reverse).relationships := by
  have hperm : pumps.Perm pumps.reverse := (List.reverse_perm pumps).symm
  exact ⟨hperm, orderless_pumps, by decide +kernel,
    (analysis_order_irrelevant hperm).2.2 orderless_pumps⟩

end RepoAtlas.CallGraph
