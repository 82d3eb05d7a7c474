/-!
# Phrases of Python source

A phrase is an expression, a statement or a pattern. Only what tells names, calls and definitions apart is kept;
any other phrase is a compound of its parts in the order in which they are visited.
-/

namespace RepoAtlas.Grammar

/-- What a compound is, as far as it matters. -/
inductive Form where
  | subscript
  | starred
  | tuple
  | list
  /-- An expression that is a statement. -/
  | statement
  | other
  deriving DecidableEq, Repr

/-- An expression, a statement or a pattern. -/
inductive Phrase where
  | name (id : String)
  | attribute (value : Phrase) (field : String)
  | call (line : Nat) (callee : Phrase) (arguments : List Phrase)
  /-- A text; `none` if some of its code points are no characters. -/
  | text (value : Option String)
  | compound (form : Form) (parts : List Phrase)
  /-- A function with the names of its plain parameters, and the annotations and default values of all
  its parameters. -/
  | function (line endLine : Nat) (name : String) (parameters : List String)
      (signature body decorators returns : List Phrase)
  | type (line endLine : Nat) (name : String) (bases keywords body decorators : List Phrase)
  deriving Inhabited

/-- A phrase without parts of interest. -/
def Phrase.constant : Phrase :=
  .compound .other []

mutual
/-- Whether values can be assigned to an expression. -/
def Phrase.isTarget : Phrase → Bool
  | .name _ => true
  | .attribute _ _ => true
  | .compound .subscript _ => true
  | .compound .starred parts => areTargets parts
  | .compound .tuple parts => areTargets parts
  | .compound .list parts => areTargets parts
  | _ => false

/-- Whether values can be assigned to all of several expressions. -/
def areTargets : List Phrase → Bool
  | [] => true
  | p :: ps => p.isTarget && areTargets ps
end

/-- Whether an expression is a single place: a name, an attribute or a subscript. -/
def Phrase.isPlace : Phrase → Bool
  | .name _ => true
  | .attribute _ _ => true
  | .compound .subscript _ => true
  | _ => false

mutual
/-- Whether an expression can be deleted. -/
def Phrase.isDeletable : Phrase → Bool
  | .name _ => true
  | .attribute _ _ => true
  | .compound .subscript _ => true
  | .compound .tuple parts => areDeletable parts
  | .compound .list parts => areDeletable parts
  | _ => false

/-- Whether all of several expressions can be deleted. -/
def areDeletable : List Phrase → Bool
  | [] => true
  | p :: ps => p.isDeletable && areDeletable ps
end

end RepoAtlas.Grammar
