import RepoAtlas.Grammar.Expression

/-!
# Patterns of `match` statements

A pattern is a literal, a name to capture, a dotted value, a sequence, a mapping or a class with
patterns inside; alternatives are separated by bars, and a name may follow with `as`.
-/

namespace RepoAtlas.Grammar

/-- Whether a number is imaginary. -/
def isImaginary (t : Token) : Bool :=
  match t.text.toList.getLast? with
  | some c => c == 'j' || c == 'J'
  | none => false

/-- A number with an optional sign, and possibly an imaginary part. -/
def numberPattern : Parser Phrase := do
  let _ ← accept "-"
  let real ← ofKind .number
  if ← nextIs ["+", "-"] then
    let _ ← advance
    let imaginary ← ofKind .number
    ensure (!isImaginary real && isImaginary imaginary)
    return .constant
  else return .constant

/-- A literal. -/
def literalPattern (r : Rules) : Parser Phrase := do
  match ← peek? with
  | none => failure
  | some t =>
    if t.kind == .text then strings r
    else if t.kind == .number || t.is "-" then numberPattern
    else
      oneOf ["None", "True", "False"]
      return .constant

/-- A name that takes a value, which is not the name of anything else. -/
def captureTarget : Parser Unit := do
  let name ← identifier
  let other ← nextIs [".", "(", "="]
  ensure (name != "_" && !other)

/-- A name with attributes. -/
def dottedName : Parser Phrase := do
  let first ← identifier
  let more ← many (word "." *> identifier)
  return more.foldl .attribute (.name first)

/-- A pattern or a starred name, as it stands in a sequence. -/
def itemPattern (r : Rules) : Parser Phrase := do
  if ← accept "*" then
    let _ ← identifier
    let other ← nextIs [".", "(", "="]
    ensure !other
    return .constant
  else r.pattern

/-- The patterns in a mapping: keys and patterns. The rest of the mapping comes last. -/
def mappingItems (r : Rules) : Nat → Parser (List Phrase × List Phrase)
  | 0 => failure
  | n + 1 => do
    if ← accept "**" then
      captureTarget
      let _ ← accept ","
      return ([], [])
    else
      let key ← if (← peek?).any (·.kind == .name) then do
          let k ← dottedName
          ensure (match k with | .name _ => false | _ => true)
          pure k
        else literalPattern r
      word ":"
      let value ← r.pattern
      let more ← if ← accept "," then
          if ← nextIs ["\x7d"] then pure ([], []) else mappingItems r n
        else pure ([], [])
      return (key :: more.1, value :: more.2)

/-- The patterns of a class, positional ones before those with keywords. -/
def classItems (r : Rules) : Nat → Bool → Parser (List Phrase)
  | 0, _ => failure
  | n + 1, sawKeyword => do
    if ← nextIs [")"] then return []
    else
      let isKeyword ← nameThen "="
      ensure (isKeyword || !sawKeyword)
      if isKeyword then
        let _ ← identifier
        word "="
      let p ← r.pattern
      let more ← if ← accept "," then classItems r n isKeyword else pure []
      return p :: more

/-- A pattern that begins with a name: a capture, a value or a class. -/
def namePattern (r : Rules) : Parser Phrase := do
  let value ← dottedName
  if ← accept "(" then
    let items ← classItems r ((← get).rest.length + 1) false
    word ")"
    return group (value :: items)
  else
    ensure !(← nextIs ["="])
    match value with
    | .name _ => return .constant
    | _ => return value

/-- Patterns with commas between them up to a closing symbol; a single one without a comma counts if
`single` says so. -/
def sequenceItems (r : Rules) (close : String) (single : Bool) : Parser (List Phrase) := do
  if ← accept close then return []
  else
    let first ← itemPattern r
    if ← nextIs [","] then
      let more ← many (word "," *> itemPattern r)
      let _ ← accept ","
      word close
      return first :: more
    else
      ensure single
      word close
      return [first]

/-- A pattern in parentheses, or a sequence. -/
def parenthesisedPattern (r : Rules) : Parser Phrase := do
  let starts ← nextIs ["*"]
  return group (← sequenceItems r ")" !starts)

/-- A pattern without alternatives. -/
def closedPattern (r : Rules) : Parser Phrase := do
  if ← accept "(" then parenthesisedPattern r
  else if ← accept "[" then return group (← sequenceItems r "]" true)
  else if ← accept "\x7b" then
    if ← accept "\x7d" then return group []
    else
      let (keys, values) ← mappingItems r ((← get).rest.length + 1)
      word "\x7d"
      return group (keys ++ values)
  else if (← peek?).any (·.kind == .name) then namePattern r
  else literalPattern r

/-- Alternatives, with an optional name for the value. -/
def matchPattern (r : Rules) : Parser Phrase := do
  let ps ← sepBy1 (closedPattern r) "|"
  if ← accept "as" then captureTarget
  return group ps

/-- The patterns of a case: a sequence without brackets or a single pattern. -/
def casePatterns (r : Rules) : Parser Phrase := do
  let starts ← nextIs ["*"]
  let p ← tupleOf (itemPattern r)
  match p with
  | .compound .tuple _ => return p
  | _ =>
    ensure !starts
    return p

end RepoAtlas.Grammar
