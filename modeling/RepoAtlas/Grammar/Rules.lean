import RepoAtlas.Grammar.Parser
import RepoAtlas.Grammar.Quoted

/-!
# Rules that refer to each other

A phrase may contain phrases of its own kind. Each rule of the grammar is therefore a function of the
rules for what stands inside, and the rules as a whole are tied together where statements are.
-/

namespace RepoAtlas.Grammar

/-- Rules for phrases that may contain themselves. -/
structure Rules where
  expression : Parser Phrase
  /-- An expression, possibly with a name for its value. -/
  named : Parser Phrase
  /-- Expressions with commas between them, some of them starred. -/
  stars : Parser Phrase
  /-- A starred expression or a plain one. -/
  starExpression : Parser Phrase
  inversion : Parser Phrase
  primary : Parser Phrase
  factor : Parser Phrase
  block : Parser (List Phrase)
  pattern : Parser Phrase
  /-- An expression inside a quoted text. -/
  embedded : Slot → Option Phrase

/-- A compound without a form of its own. -/
def group (parts : List Phrase) : Phrase :=
  .compound .other parts

/-- A starred expression. -/
def starred (p : Phrase) : Phrase :=
  .compound .starred [p]

/-- One of several symbols or keywords. -/
def oneOf (ws : List String) : Parser Unit := do
  let _ ← tokenThat fun t => ws.any t.is

end RepoAtlas.Grammar
