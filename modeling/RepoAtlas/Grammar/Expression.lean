import RepoAtlas.Grammar.Parameter

/-!
# Expressions

Operators bind as usual: from conditional expressions down through `or`, `and`, `not`, comparisons,
the bit operators, sums, terms, signs and powers to primaries. Every rule is given the rules for what
may stand inside it.
-/

namespace RepoAtlas.Grammar

/-- Operands with operators between them; one operand alone is itself. -/
def operands (operand : Parser Phrase) (operator : Parser Unit) : Parser Phrase := do
  let first ← operand
  let more ← many (operator *> operand)
  return if more.isEmpty then first else group (first :: more)

/-- The text that code points stand for, unless one of them is no character. -/
def characters? (codes : List Nat) : Option String :=
  if codes.all fun c => c.isValidChar then some (String.ofList (codes.map Char.ofNat)) else none

/-- The value of texts written one after the other. Bytes and characters do not mix. -/
def joined (r : Rules) (texts : List Quoted) : Option Phrase :=
  let isBytes : Quoted → Bool
    | .bytes => true
    | _ => false
  let slots := texts.flatMap fun
    | .format s => s
    | _ => []
  let isFormat := texts.any fun
    | .format _ => true
    | _ => false
  let codes := texts.flatMap fun
    | .characters c => c
    | _ => []
  if texts.all isBytes then some .constant
  else if texts.any isBytes then none
  else if isFormat then (slots.mapM r.embedded).map group
  else some (.text (characters? codes))

/-- One or more quoted texts. -/
def strings (r : Rules) : Parser Phrase := do
  let tokens ← many1 (ofKind .text)
  match tokens.mapM fun t => quoted? t.text.toList t.line with
  | none => failure
  | some texts =>
    match joined r texts with
    | some p => return p
    | none => failure

/-- An expression with a name for its value, or one without. -/
def named (r : Rules) : Parser Phrase := do
  if ← nameThen ":=" then
    let n ← identifier
    word ":="
    return group [.name n, ← r.expression]
  else r.expression

/-- Bit operators and everything that binds more closely. -/
def bitOr (r : Rules) : Parser Phrase :=
  let term := operands r.factor (oneOf ["*", "/", "//", "%", "@"])
  let sum := operands term (oneOf ["+", "-"])
  let shift := operands sum (oneOf ["<<", ">>"])
  let bitAnd := operands shift (word "&")
  let bitXor := operands bitAnd (word "^")
  operands bitXor (word "|")

/-- A comparison operator. -/
def comparator : Parser Unit := do
  if ← accept "not" then word "in"
  else if ← accept "is" then
    let _ ← accept "not"
  else oneOf ["==", "!=", "<", ">", "<=", ">=", "in"]

/-- A negation or a comparison. -/
def inversion (r : Rules) : Parser Phrase := do
  if ← accept "not" then return group [← r.inversion]
  else operands (bitOr r) comparator

/-- Alternatives of conjunctions. -/
def disjunction (r : Rules) : Parser Phrase :=
  operands (operands r.inversion (word "and")) (word "or")

/-- A function without a name. -/
def lambda (r : Rules) : Parser Phrase := do
  word "lambda"
  let ps ← parameters r false ":"
  word ":"
  return group (ps.signature ++ [← r.expression])

/-- A conditional expression, a function without a name, or a plain disjunction. -/
def expression (r : Rules) : Parser Phrase := do
  if ← nextIs ["lambda"] then lambda r
  else
    let value ← disjunction r
    if ← accept "if" then
      let test ← disjunction r
      word "else"
      return group [test, value, ← r.expression]
    else return value

/-- A starred expression or one with a name, as it stands in a display. -/
def starNamed (r : Rules) : Parser Phrase := do
  if ← accept "*" then return starred (← bitOr r) else named r

/-- A starred expression or a plain one. -/
def starExpression (r : Rules) : Parser Phrase := do
  if ← accept "*" then return starred (← bitOr r) else r.expression

/-- Items with commas between them; a single item without a comma is itself. -/
def tupleOf (item : Parser Phrase) : Parser Phrase := do
  let first ← item
  if ← nextIs [","] then
    let more ← many (word "," *> item)
    let _ ← accept ","
    return .compound .tuple (first :: more)
  else return first

/-- Expressions with commas between them, some of them starred. -/
def stars (r : Rules) : Parser Phrase :=
  tupleOf (starExpression r)

/-- A `yield` with its value. -/
def yielding (r : Rules) : Parser Phrase := do
  word "yield"
  if ← accept "from" then return group [← r.expression]
  else return group (← attempt r.stars).toList

/-- A slice or an index. -/
def slice (r : Rules) : Parser Phrase := do
  let bound : Parser (List Phrase) := do
    if ← nextIs [":", "]", ","] then return [] else return [← r.expression]
  if ← nameThen ":=" then named r
  else
    let lower ← bound
    if ← accept ":" then
      let upper ← bound
      let step ← if ← accept ":" then bound else pure []
      return group (lower ++ upper ++ step)
    else
      match lower with
      | [e] => return e
      | _ => failure

/-- What stands between the brackets of a subscript. -/
def slices (r : Rules) : Parser Phrase :=
  tupleOf do
    if ← accept "*" then return starred (← r.expression) else slice r

/-- Whether an item is starred. -/
def isStarred : Phrase → Bool
  | .compound .starred _ => true
  | _ => false

/-- Whether a comprehension begins. -/
def nextIsClause : Parser Bool :=
  nextIs ["for", "async"]

/-- Arguments of a call: positional ones and starred ones, then keyword ones. -/
structure Arguments where
  positional : List Phrase := []
  keywords : List Phrase := []

/-- Arguments before others. -/
def Arguments.append (a b : Arguments) : Arguments :=
  ⟨a.positional ++ b.positional, a.keywords ++ b.keywords⟩

/-- How far a list of arguments has come: positional ones end with the first keyword, starred ones with
the first mapping. -/
inductive ArgumentStage where
  | positional
  | keyword
  | mapping
  deriving DecidableEq

/-- One argument of a call, and how far the list has come. -/
def argument (r : Rules) (stage : ArgumentStage) : Parser (Arguments × ArgumentStage) := do
  if ← accept "**" then return ({ keywords := [← r.expression] }, .mapping)
  else if ← accept "*" then
    ensure (stage != .mapping)
    return ({ positional := [starred (← r.expression)] }, stage)
  else if ← nameThen "=" then
    let _ ← identifier
    word "="
    return ({ keywords := [← r.expression] }, if stage = .mapping then .mapping else .keyword)
  else
    ensure (stage = .positional)
    return ({ positional := [← named r] }, stage)

/-- Arguments up to a closing parenthesis, after `before`. -/
def argumentsFrom (r : Rules) : Nat → ArgumentStage → Arguments → Parser Arguments
  | 0, _, _ => failure
  | n + 1, stage, before => do
    let (a, stage) ← argument r stage
    let all := before.append a
    if ← accept "," then
      if ← nextIs [")"] then return all else argumentsFrom r n stage all
    else return all

/-- The arguments in parentheses, possibly none. -/
def argumentList (r : Rules) : Parser Arguments := do
  word "("
  if ← accept ")" then return {}
  else
    let all ← argumentsFrom r (← get).rest.length .positional {}
    word ")"
    return all

/-- The places of an assignment in a loop, up to the keyword that follows. -/
def loopTargets (r : Rules) : Parser Phrase := do
  let target ← tupleOf do
    if ← accept "*" then return starred (← r.primary) else r.primary
  ensure target.isTarget
  return target

/-- The clauses of a comprehension. -/
def clauses (r : Rules) : Parser (List Phrase) :=
  many1 do
    let _ ← accept "async"
    word "for"
    let target ← loopTargets r
    word "in"
    let values ← disjunction r
    let conditions ← many (word "if" *> disjunction r)
    return group (target :: values :: conditions)

/-- The arguments of a call: a list of them, or a single comprehension without parentheses. -/
def callArguments (r : Rules) : Parser Arguments := do
  if ← nextIs ["("] then
    match (← get).rest with
    | _ :: t :: u :: _ =>
      if t.is ")" || t.is "*" || t.is "**" || (t.kind == .name && u.is "=") then argumentList r
      else
        word "("
        let first ← named r
        if ← nextIsClause then
          let cs ← clauses r
          word ")"
          return { positional := [group (first :: cs)] }
        else
          let all ← if ← accept "," then
              if ← nextIs [")"] then pure { positional := [first] }
              else argumentsFrom r (← get).rest.length .positional { positional := [first] }
            else pure { positional := [first] }
          word ")"
          return all
    | _ => argumentList r
  else failure

/-- What stands in parentheses: a tuple, a comprehension or a single expression. -/
def parenthesised (r : Rules) : Parser Phrase := do
  word "("
  if ← accept ")" then return .compound .tuple []
  else if ← nextIs ["yield"] then
    let y ← yielding r
    word ")"
    return group [y]
  else
    let first ← starNamed r
    if ← nextIsClause then
      ensure (!isStarred first)
      let cs ← clauses r
      word ")"
      return group (first :: cs)
    else if ← nextIs [","] then
      let more ← many (word "," *> starNamed r)
      let _ ← accept ","
      word ")"
      return .compound .tuple (first :: more)
    else
      ensure (!isStarred first)
      word ")"
      return first

/-- What stands in square brackets: a list or a comprehension. -/
def bracketed (r : Rules) : Parser Phrase := do
  word "["
  if ← accept "]" then return .compound .list []
  else
    let first ← starNamed r
    if ← nextIsClause then
      ensure (!isStarred first)
      let cs ← clauses r
      word "]"
      return group (first :: cs)
    else
      let more ← many (word "," *> starNamed r)
      let _ ← accept ","
      word "]"
      return .compound .list (first :: more)

/-- A key with its value, or a mapping to take over: the keys and the values. -/
def entry (r : Rules) : Parser (List Phrase × Phrase) := do
  if ← accept "**" then return ([], ← bitOr r)
  else
    let key ← r.expression
    word ":"
    return ([key], ← r.expression)

/-- What stands in braces: a mapping, a set or a comprehension of either. -/
def braced (r : Rules) : Parser Phrase := do
  word "\x7b"
  if ← accept "\x7d" then return group []
  else if ← nextIs ["**"] then
    let es ← commaList (entry r)
    word "\x7d"
    return group (es.flatMap (·.1) ++ es.map (·.2))
  else
    let naming ← nameThen ":="
    let first ← starNamed r
    if !naming && !isStarred first && (← accept ":") then
      let value ← r.expression
      if ← nextIsClause then
        let cs ← clauses r
        word "\x7d"
        return group (first :: value :: cs)
      else
        let es ← many (word "," *> entry r)
        let _ ← accept ","
        word "\x7d"
        return group (first :: es.flatMap (·.1) ++ value :: es.map (·.2))
    else if ← nextIsClause then
      ensure (!isStarred first)
      let cs ← clauses r
      word "\x7d"
      return group (first :: cs)
    else
      let more ← many (word "," *> starNamed r)
      let _ ← accept ","
      word "\x7d"
      return group (first :: more)

/-- The smallest expressions. -/
def atom (r : Rules) : Parser Phrase := do
  match ← peek? with
  | none => failure
  | some t =>
    match t.kind with
    | .name => return .name (← identifier)
    | .number => do
      let _ ← advance
      return .constant
    | .text => strings r
    | _ =>
      if t.is "(" then parenthesised r
      else if t.is "[" then bracketed r
      else if t.is "\x7b" then braced r
      else
        oneOf ["True", "False", "None", "..."]
        return .constant

/-- A primary made longer by an attribute, a call or a subscript. -/
def extend (r : Rules) (line : Nat) (p : Phrase) : Parser Phrase := do
  if ← accept "." then return .attribute p (← identifier)
  else if ← accept "[" then
    let index ← slices r
    word "]"
    return .compound .subscript [p, index]
  else
    let a ← callArguments r
    return .call line p (a.positional ++ a.keywords)

/-- A primary made longer as often as possible, at most `n` times. -/
def extendUpTo (r : Rules) (line : Nat) : Nat → Phrase → Parser Phrase
  | 0, p => return p
  | n + 1, p => do
    match ← attempt (extend r line p) with
    | some q => extendUpTo r line n q
    | none => return p

/-- An atom with attributes, calls and subscripts. -/
def primary (r : Rules) : Parser Phrase := do
  let line ← nextLine
  let p ← atom r
  extendUpTo r line (← get).rest.length p

/-- A primary, possibly awaited, and its power. -/
def power (r : Rules) : Parser Phrase := do
  let base ← if ← accept "await" then pure (group [← r.primary]) else r.primary
  if ← accept "**" then return group [base, ← r.factor] else return base

/-- A power with signs in front. -/
def factor (r : Rules) : Parser Phrase := do
  if ← nextIs ["+", "-", "~"] then
    let _ ← advance
    return group [← r.factor]
  else power r

end RepoAtlas.Grammar
