import RepoAtlas.Grammar.Phrase
import RepoAtlas.Grammar.Token
import RepoAtlas.Text.NormalForm

/-!
# Parsers over tokens

A parser reads a phrase from the beginning of the remaining tokens, or fails. After a failure the
tokens are as they were. Repetitions are bounded by the number of tokens that remain, since every
round reads at least one.
-/

namespace RepoAtlas.Grammar

/-- The tokens that remain, and the line on which the last token ended that is no layout. -/
structure Input where
  rest : List Token
  lastLine : Nat := 0

/-- A parser of values. -/
abbrev Parser (α : Type) := StateT Input Option α

variable {α : Type}

/-- The next token, if any. -/
def peek? : Parser (Option Token) := do
  return (← get).rest.head?

/-- The line of the next token. -/
def nextLine : Parser Nat := do
  return ((← peek?).map (·.line)).getD 0

/-- Read the next token. -/
def advance : Parser Token := do
  match (← get).rest with
  | t :: ts =>
    modify fun i =>
      { rest := ts, lastLine := if t.isLayout then i.lastLine else t.endLine }
    return t
  | [] => failure

/-- Read a token that satisfies a condition. -/
def tokenThat (p : Token → Bool) : Parser Token := do
  let t ← advance
  if p t then return t else failure

/-- Whether a token is a given keyword or symbol. -/
def Token.is (t : Token) (w : String) : Bool :=
  (t.kind == .keyword || t.kind == .symbol) && t.text == w

/-- Read a given keyword or symbol. -/
def word (w : String) : Parser Unit := do
  let _ ← tokenThat (·.is w)

/-- Read a token of a given kind. -/
def ofKind (k : TokenKind) : Parser Token :=
  tokenThat (·.kind == k)

/-- Read a name; its normal form counts. -/
def identifier : Parser String := do
  return Text.normalName (← ofKind .name).text

/-- Read a given name, which is a keyword only here. -/
def softWord (w : String) : Parser Unit := do
  let _ ← tokenThat fun t => t.kind == .name && t.text == w

/-- Whether the next token is one of several keywords and symbols. -/
def nextIs (ws : List String) : Parser Bool := do
  match ← peek? with
  | some t => return ws.any t.is
  | none => return false

/-- Whether a given keyword or symbol follows a name. -/
def nameThen (w : String) : Parser Bool := do
  match (← get).rest with
  | a :: b :: _ => return a.kind == .name && b.is w
  | _ => return false

/-- Read a keyword or symbol if it comes next. -/
def accept (w : String) : Parser Bool := do
  if ← nextIs [w] then
    let _ ← advance
    return true
  else return false

/-- Try a parser; if it fails nothing is read. -/
def attempt (p : Parser α) : Parser (Option α) :=
  (some <$> p) <|> pure none

/-- Read as often as possible, at most `n` times. -/
def manyUpTo (p : Parser α) : Nat → Parser (List α)
  | 0 => return []
  | n + 1 => do
    match ← attempt p with
    | some a => return a :: (← manyUpTo p n)
    | none => return []

/-- Read as often as possible. -/
def many (p : Parser α) : Parser (List α) := do
  manyUpTo p (← get).rest.length

/-- Read at least once and as often as possible. -/
def many1 (p : Parser α) : Parser (List α) := do
  return (← p) :: (← many p)

/-- Read one or more, with a separator between them. -/
def sepBy1 (p : Parser α) (sep : String) : Parser (List α) := do
  return (← p) :: (← many (word sep *> p))

/-- Read one or more with commas between them; a comma may also follow the last. -/
def commaList (p : Parser α) : Parser (List α) := do
  let xs ← sepBy1 p ","
  let _ ← accept ","
  return xs

/-- Look whether a condition holds for the next token, or fail. -/
def ensureNext (ws : List String) : Parser Unit := do
  if ← nextIs ws then return () else failure

/-- Fail unless a condition holds. -/
def ensure (b : Bool) : Parser Unit :=
  if b then pure () else failure

end RepoAtlas.Grammar
