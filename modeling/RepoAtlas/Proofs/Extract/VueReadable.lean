import RepoAtlas.Extract.Vue
import RepoAtlas.Proofs.Extract.Readable

/-!
# Analyses of readable Vue files

The script of a Vue file is read with the attributes of its tag, and its template node by node. In a readable tree
both can be read.
-/

namespace RepoAtlas.Extract.Vue

open Syntax

variable {s : Source} {root c : Cursor} {id : String}

/-- The last text is read. -/
theorem isOk_lastText {nodes : List Cursor} (h : ∀ n ∈ nodes, Readable s n) : (lastText s nodes).isOk = true :=
  isOk_bind (isOk_collect_text h) fun _ _ => rfl

/-- A quoted value is read. -/
theorem isOk_quotedValue (h : Readable s c) : (quotedValue s c).isOk = true := by
  refine isOk_lastText fun n hn => ?_
  obtain ⟨q, hq, hn⟩ := List.mem_flatMap.mp hn
  exact (h.filtered _ q hq).filtered _ n hn

/-- Attributes are read. -/
theorem isOk_attributes (h : Readable s c) : (attributes s c).isOk = true := by
  refine isOk_collect fun a ha => ?_
  have hread : Readable s a := h.filtered _ a ha
  exact isOk_bind (isOk_lastText (hread.filtered _)) fun _ _ =>
    isOk_bind (isOk_quotedValue hread) fun _ _ => rfl

/-- A last part is readable. -/
theorem readable_of_lastChild? {kind : String} {d : Cursor} (h : Readable s c) (hd : lastChild? c kind = some d) :
    Readable s d :=
  h.filtered _ d (List.mem_of_getLast? hd)

/-- Directives are read. -/
theorem isOk_directiveAt (h : Readable s c) : (directiveAt s id c).isOk = true := by
  refine isOk_bind (isOk_lastText (h.filtered _)) fun name _ => isOk_bind (isOk_quotedValue h) fun value _ => ?_
  cases value with
  | none => rfl
  | some value =>
    dsimp only
    split
    · rfl
    split
    · rfl
    split <;> rfl

/-- Elements are read. -/
theorem isOk_elementAt (h : Readable s c) : (elementAt s id c).isOk = true := by
  unfold elementAt
  split
  · rfl
  · rename_i tag htag
    have hread : Readable s tag := by
      unfold tag? at htag
      split at htag
      · exact Option.some.inj htag ▸ h
      · exact h.child? htag
    refine isOk_bind (isOk_text? fun n hn => hread.child? hn) fun name? _ => ?_
    split
    · rfl
    · exact isOk_bind (isOk_collect fun d hd => isOk_directiveAt (hread.filtered _ d hd)) fun _ _ => rfl

/-- Interpolations are read. -/
theorem isOk_interpolationAt (h : Readable s c) : (interpolationAt s id c).isOk = true :=
  isOk_collect fun t ht => isOk_bind (h.filtered _ t ht).text fun _ _ => rfl

/-- Templates are read. -/
theorem isOk_templateAt (h : Readable s c) : (templateAt s id c).isOk = true := by
  unfold templateAt
  split
  · exact isOk_elementAt h
  split
  · exact isOk_interpolationAt h
  · rfl

end RepoAtlas.Extract.Vue
