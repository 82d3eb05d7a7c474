import RepoAtlas.Grammar.Rules

/-!
# Parameters of functions

Parameters come in up to four groups: those before a slash, plain ones, those after a star, and one
for the remaining keywords. A parameter without a default value does not follow one with a default
value before the star.
-/

namespace RepoAtlas.Grammar

/-- Parameters read so far. -/
structure Parameters where
  /-- The annotations of parameters before the slash. -/
  leading : List Phrase := []
  /-- The names of the plain parameters. -/
  names : List String := []
  plain : List Phrase := []
  variadic : List Phrase := []
  keyword : List Phrase := []
  keywordDefaults : List Phrase := []
  remaining : List Phrase := []
  defaults : List Phrase := []
  sawSlash : Bool := false
  sawStar : Bool := false
  /-- Whether no parameter may follow. -/
  complete : Bool := false

/-- Annotations and default values in the order in which they are visited. -/
def Parameters.signature (p : Parameters) : List Phrase :=
  p.leading ++ p.plain ++ p.variadic ++ p.keyword ++ p.keywordDefaults ++ p.remaining ++ p.defaults

/-- The annotation of a parameter, where there may be one. -/
def annotation (annotated : Bool) (value : Parser Phrase) : Parser (List Phrase) := do
  if annotated then
    if ← accept ":" then return [← value] else return []
  else return []

/-- A parameter with a name, possibly with a default value. -/
def plainParameter (r : Rules) (annotated : Bool) (p : Parameters) : Parser Parameters := do
  let name ← identifier
  let notes ← annotation annotated r.expression
  let value ← if ← accept "=" then pure [← r.expression] else pure []
  if p.sawStar then
    return { p with keyword := p.keyword ++ notes, keywordDefaults := p.keywordDefaults ++ value }
  else
    ensure (p.defaults.isEmpty || !value.isEmpty)
    return { p with
      names := p.names ++ [name], plain := p.plain ++ notes, defaults := p.defaults ++ value }

/-- What follows a star: nothing, if another parameter comes, or a name. -/
def starParameter (r : Rules) (annotated : Bool) (p : Parameters) : Parser Parameters := do
  ensure (!p.sawStar)
  if ← nextIs [","] then
    match (← get).rest with
    | _ :: t :: _ =>
      ensure (t.kind == .name)
      return { p with sawStar := true }
    | _ => failure
  else
    let _ ← identifier
    let notes ← annotation annotated r.starExpression
    return { p with variadic := notes, sawStar := true }

/-- One parameter, or a slash or a star. -/
def parameter (r : Rules) (annotated : Bool) (p : Parameters) : Parser Parameters := do
  if ← accept "/" then
    ensure (!p.sawStar && !p.sawSlash && !p.names.isEmpty)
    return { p with leading := p.plain, plain := [], names := [], sawSlash := true }
  else if ← accept "*" then starParameter r annotated p
  else if ← accept "**" then
    let _ ← identifier
    let notes ← annotation annotated r.expression
    return { p with remaining := notes, complete := true }
  else plainParameter r annotated p

/-- Parameters up to a closing symbol, after those in `p`. -/
def parametersFrom (r : Rules) (annotated : Bool) (close : String) : Nat → Parameters →
    Parser Parameters
  | 0, p => return p
  | n + 1, p => do
    if ← nextIs [close] then return p
    else
      let p ← parameter r annotated p
      if ← accept "," then
        if p.complete then return p else parametersFrom r annotated close n p
      else return p

/-- Parameters up to a closing symbol. -/
def parameters (r : Rules) (annotated : Bool) (close : String) : Parser Parameters := do
  parametersFrom r annotated close ((← get).rest.length + 1) {}

end RepoAtlas.Grammar
