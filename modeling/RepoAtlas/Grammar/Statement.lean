import RepoAtlas.Grammar.MatchPattern
import RepoAtlas.Grammar.Lexer

/-!
# Statements and programs

Simple statements stand on one line with semicolons between them; compound statements have blocks.
The rules of the grammar are tied together here, by the number of phrases that may stand inside each
other: no phrase of a program contains more of them than it has tokens. There are no type parameters
and no type statements in this grammar, and a formatted text does not hold its own quotes.
-/

namespace RepoAtlas.Grammar

/-- A value that is assigned. -/
def assigned (r : Rules) : Parser Phrase := do
  if ← nextIs ["yield"] then yielding r else stars r

/-- Symbols that change the value of a place. -/
def updates : List String :=
  ["+=", "-=", "*=", "@=", "/=", "%=", "&=", "|=", "^=", "<<=", ">>=", "**=", "//="]

/-- Further places and the value of an assignment, after the first place. -/
def assignment (r : Rules) (first : Phrase) : Parser Phrase := do
  let values ← many1 (word "=" *> assigned r)
  let parts := first :: values
  ensure (areTargets parts.dropLast)
  return group parts

/-- An expression, an assignment or an annotation. -/
def expressionStatement (r : Rules) : Parser Phrase := do
  let first ← assigned r
  if ← nextIs ["="] then assignment r first
  else if ← nextIs updates then
    ensure first.isPlace
    let _ ← advance
    return group [first, ← assigned r]
  else if ← accept ":" then
    ensure first.isPlace
    let note ← r.expression
    let value ← if ← accept "=" then pure [← assigned r] else pure []
    return group (first :: note :: value)
  else return .compound .statement [first]

/-- Names with dots. -/
def modulePath : Parser Unit := do
  let _ ← sepBy1 identifier "."

/-- Another name for what is imported or caught. -/
def otherName : Parser Unit := do
  if ← accept "as" then
    let _ ← identifier

/-- The names that are imported from a module. -/
def importedNames : Parser Unit := do
  if ← accept "*" then return ()
  else if ← accept "(" then
    let _ ← commaList (identifier *> otherName)
    word ")"
  else
    let _ ← sepBy1 (identifier *> otherName) ","

/-- An import from a module. -/
def importFrom : Parser Phrase := do
  word "from"
  let dots ← many (oneOf [".", "..."])
  if dots.isEmpty || !(← nextIs ["import"]) then modulePath
  word "import"
  importedNames
  return group []

/-- The phrase after a keyword, if there is one before the end of the statement. -/
def optionalStars (r : Rules) : Parser (List Phrase) := do
  return (← attempt (stars r)).toList

/-- Places that are deleted. -/
def deletion (r : Rules) : Parser Phrase := do
  let ps ← commaList r.primary
  ensure (areDeletable ps)
  return group ps

/-- An exception with an optional cause. -/
def raised (r : Rules) : Parser Phrase := do
  match ← attempt r.expression with
  | none => return group []
  | some e =>
    if ← accept "from" then return group [e, ← r.expression] else return group [e]

/-- A statement without a block. -/
def simpleStatement (r : Rules) : Parser Phrase := do
  if ← nextIs ["from"] then importFrom
  else if ← accept "import" then
    let _ ← sepBy1 (modulePath *> otherName) ","
    return group []
  else if ← accept "return" then return group (← optionalStars r)
  else if ← accept "raise" then raised r
  else if ← accept "del" then deletion r
  else if ← accept "assert" then
    let test ← r.expression
    if ← accept "," then return group [test, ← r.expression] else return group [test]
  else if ← nextIs ["global", "nonlocal"] then
    let _ ← advance
    let _ ← sepBy1 identifier ","
    return group []
  else if ← nextIs ["pass", "break", "continue"] then
    let _ ← advance
    return group []
  else expressionStatement r

/-- The statements of one line. -/
def simpleStatements (r : Rules) : Parser (List Phrase) := do
  let ss ← sepBy1 (simpleStatement r) ";"
  let _ ← accept ";"
  let _ ← ofKind .newline
  return ss

/-- A colon and a block. -/
def suite (r : Rules) : Parser (List Phrase) :=
  word ":" *> r.block

/-- The block after a keyword, if it comes next. -/
def optionalSuite (r : Rules) (w : String) : Parser (List Phrase) := do
  if ← accept w then suite r else return []

/-- A conditional statement, after its keyword. -/
def conditional (r : Rules) : Parser Phrase := do
  let test ← named r
  let body ← suite r
  let others ← many do
    word "elif"
    let t ← named r
    return t :: (← suite r)
  let last ← optionalSuite r "else"
  return group (test :: body ++ others.flatten ++ last)

/-- A loop over values, after its keyword. -/
def forLoop (r : Rules) : Parser Phrase := do
  let target ← loopTargets r
  word "in"
  let values ← stars r
  let body ← suite r
  let last ← optionalSuite r "else"
  return group (target :: values :: body ++ last)

/-- A loop with a test, after its keyword. -/
def whileLoop (r : Rules) : Parser Phrase := do
  let test ← named r
  let body ← suite r
  let last ← optionalSuite r "else"
  return group (test :: body ++ last)

/-- A resource with an optional place for it. -/
def resource (r : Rules) : Parser Phrase := do
  let value ← r.expression
  if ← accept "as" then
    let isStar ← accept "*"
    let target ← r.primary
    ensure target.isTarget
    ensureNext [",", ")", ":"]
    return group [value, if isStar then starred target else target]
  else return value

/-- A statement that holds resources, after its keyword. -/
def withStatement (r : Rules) : Parser Phrase := do
  let enclosed ← attempt do
    word "("
    let items ← commaList (resource r)
    word ")"
    ensureNext [":"]
    return items
  let items ← match enclosed with
    | some items => pure items
    | none => sepBy1 (resource r) ","
  return group (items ++ (← suite r))

/-- A handler, after its keyword: the exceptions that it handles and its block. -/
def handler (r : Rules) (needsValue : Bool) : Parser (List Phrase) := do
  if !needsValue && (← nextIs [":"]) then suite r
  else
    let value ← r.expression
    otherName
    return value :: (← suite r)

/-- A statement with handlers, after its keyword. -/
def tryStatement (r : Rules) : Parser Phrase := do
  let body ← suite r
  if ← nextIs ["finally"] then return group (body ++ (← optionalSuite r "finally"))
  else
    word "except"
    let isStar ← accept "*"
    let first ← handler r isStar
    let more ← many do
      word "except"
      if isStar then word "*"
      handler r isStar
    let other ← optionalSuite r "else"
    let last ← optionalSuite r "finally"
    return group (body ++ first ++ more.flatten ++ other ++ last)

/-- A case of a `match` statement. -/
def matchCase (r : Rules) : Parser (List Phrase) := do
  softWord "case"
  let p ← casePatterns r
  let guard ← if ← accept "if" then pure [← named r] else pure []
  return p :: guard ++ (← suite r)

/-- What a `match` statement looks at. -/
def subject (r : Rules) : Parser Phrase := do
  let starts ← nextIs ["*"]
  let p ← tupleOf (starNamed r)
  match p with
  | .compound .starred _ =>
    ensure !starts
    return p
  | _ => return p

/-- The first line of a `match` statement. -/
def matchHead (r : Rules) : Parser Phrase := do
  softWord "match"
  let p ← subject r
  word ":"
  let _ ← ofKind .newline
  let _ ← ofKind .indent
  return p

/-- The cases of a `match` statement. -/
def matchCases (r : Rules) : Parser (List Phrase) := do
  let cases ← many1 (matchCase r)
  let _ ← ofKind .dedent
  return cases.flatten

/-- A function with its decorators. -/
def functionStatement (r : Rules) (line : Nat) (decorators : List Phrase) : Parser Phrase := do
  word "def"
  let name ← identifier
  word "("
  let ps ← parameters r true ")"
  word ")"
  let returns ← if ← accept "->" then pure [← r.expression] else pure []
  let body ← suite r
  return .function line (← get).lastLine name ps.names ps.signature body decorators returns

/-- A class with its decorators. -/
def classStatement (r : Rules) (line : Nat) (decorators : List Phrase) : Parser Phrase := do
  word "class"
  let name ← identifier
  let bases ← if ← nextIs ["("] then argumentList r else pure {}
  let body ← suite r
  return .type line (← get).lastLine name bases.positional bases.keywords body decorators

/-- A function or a class with its decorators. -/
def definition (r : Rules) (decorators : List Phrase) : Parser Phrase := do
  let line ← nextLine
  if ← nextIs ["class"] then classStatement r line decorators
  else
    let _ ← accept "async"
    functionStatement r line decorators

/-- Lines with decorators. -/
def decoratorLines (r : Rules) : Parser (List Phrase) :=
  many1 do
    word "@"
    let d ← named r
    let _ ← ofKind .newline
    return d

/-- Whether a function comes after the next token. -/
def functionFollows : Parser Bool := do
  match (← get).rest with
  | _ :: t :: _ => return t.is "def"
  | _ => return false

/-- A statement with a block that begins with a keyword. -/
def blockStatement (r : Rules) : Parser Phrase := do
  if ← accept "if" then conditional r
  else if ← accept "while" then whileLoop r
  else if ← accept "for" then forLoop r
  else if ← accept "with" then withStatement r
  else if ← accept "try" then tryStatement r
  else if ← nextIs ["@"] then definition r (← decoratorLines r)
  else if ← nextIs ["def", "class"] then definition r []
  else if ← functionFollows then definition r []
  else
    word "async"
    if ← accept "for" then forLoop r
    else
      word "with"
      withStatement r

/-- Whether a statement begins that has a block. -/
def nextHasBlock : Parser Bool :=
  nextIs ["if", "while", "for", "with", "try", "@", "def", "class", "async"]

/-- A compound statement or the statements of a line. -/
def statement (r : Rules) : Parser (List Phrase) := do
  if ← nextHasBlock then return [← blockStatement r]
  else
    match ← attempt (matchHead r) with
    | some p => return p :: (← matchCases r)
    | none => simpleStatements r

/-- Statements on further lines that are indented, or those of the same line. -/
def block (r : Rules) : Parser (List Phrase) := do
  if (← peek?).any (·.kind == .newline) then
    let _ ← advance
    let _ ← ofKind .indent
    let ss ← many1 (statement r)
    let _ ← ofKind .dedent
    return ss.flatten
  else simpleStatements r

/-- Read an expression that stands in a quoted text. -/
def embedded (r : Rules) (s : Slot) : Option Phrase := do
  let ts ← tokens? s.line ('(' :: s.text ++ [')'])
  let (p, i) ← (assigned r).run { rest := ts.filter fun t => !t.isLayout }
  if i.rest.isEmpty then some p else none

/-- The rules for phrases with at most `n` phrases inside each other. -/
def rules : Nat → Rules
  | 0 =>
    { expression := failure, named := failure, stars := failure, starExpression := failure
      inversion := failure, primary := failure, factor := failure, block := failure
      pattern := failure, embedded := fun _ => none }
  | n + 1 =>
    { expression := fun i => expression (rules n) i
      named := fun i => named (rules n) i
      stars := fun i => stars (rules n) i
      starExpression := fun i => starExpression (rules n) i
      inversion := fun i => inversion (rules n) i
      primary := fun i => primary (rules n) i
      factor := fun i => factor (rules n) i
      block := fun i => block (rules n) i
      pattern := fun i => matchPattern (rules n) i
      embedded := fun s => embedded (rules n) s }

/-- Every phrase inside another takes at most this many rules to reach. -/
def rulesPerToken : Nat := 8

/-- The statements of a program; `none` if it does not follow the grammar. -/
def program? (source : List Char) : Option (List Phrase) := do
  let ts ← tokens? 1 source
  let (ss, i) ← (many (statement (rules (rulesPerToken * (source.length + 1))))).run { rest := ts }
  if i.rest.isEmpty then some ss.flatten else none

end RepoAtlas.Grammar
