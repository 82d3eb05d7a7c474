import RepoAtlas.Grammar.Token
import RepoAtlas.Text.Line

/-!
# Reading tokens

Lines end a statement unless a bracket is open or a backslash joins them. Indentation is measured twice, with
tabs that reach to the next multiple of eight and with tabs that count one; both measures have to agree on every
comparison.
-/

namespace RepoAtlas.Grammar

/-- Whether a character can stand in a word, before its letters are checked. -/
def isWordPart (c : Char) : Bool :=
  c.isAlphanum || c == '_' || 128 ≤ c.toNat

/-- Whether a character is a hexadecimal digit. -/
def isHexDigit (c : Char) : Bool :=
  c.isDigit || ('a' ≤ c && c ≤ 'f') || ('A' ≤ c && c ≤ 'F')

/-- What follows digits, which single underscores may divide. An underscore that no digit follows is
an error. -/
def afterDigits (isDigit : Char → Bool) : List Char → Option (List Char)
  | [] => some []
  | c :: s =>
    if isDigit c then afterDigits isDigit s
    else if c == '_' then
      match s with
      | d :: _ => if isDigit d then afterDigits isDigit s else none
      | [] => none
    else some (c :: s)

/-- Whether a number may end in front of a text: no word follows it, or one of the words that can
stand between numbers. -/
def endsNumber (s : List Char) : Bool :=
  match s with
  | [] => true
  | c :: _ =>
    !isWordPart c ||
      ["and", "else", "for", "if", "in", "is", "or", "not"].any fun w => w.toList.isPrefixOf s

/-- What follows a number whose digits after a base mark begin here. -/
def afterBase (isDigit : Char → Bool) (s : List Char) : Option (List Char) :=
  match s with
  | c :: _ =>
    if isDigit c || c == '_' then
      (afterDigits isDigit s).filter fun r => endsNumber r && !(r.head?.any Char.isDigit)
    else none
  | [] => none

/-- What follows an imaginary mark, if there is one, and the number ends there. -/
def afterImaginary (s : List Char) : Option (List Char) :=
  let rest := match s with
    | 'j' :: r => r
    | 'J' :: r => r
    | r => r
  if endsNumber rest then some rest else none

/-- What follows an exponent, if there is one, and an imaginary mark. A letter without an exponent
behind it does not belong to the number. -/
def afterExponent (s : List Char) : Option (List Char) :=
  match s with
  | c :: r =>
    if c == 'e' || c == 'E' then
      match r with
      | d :: t =>
        if d == '+' || d == '-' then
          if t.head?.any Char.isDigit then (afterDigits Char.isDigit t).bind afterImaginary
          else none
        else if d.isDigit then (afterDigits Char.isDigit r).bind afterImaginary
        else if endsNumber s then some s else none
      | [] => if endsNumber s then some s else none
    else afterImaginary s
  | [] => some []

/-- What follows the part of a number behind its point. -/
def afterFraction (s : List Char) : Option (List Char) :=
  if s.head?.any Char.isDigit then (afterDigits Char.isDigit s).bind afterExponent
  else afterExponent s

/-- What follows a decimal number that begins with a digit. Digits other than zero after a leading
zero are an error in a whole number. -/
def afterDecimal (s : List Char) : Option (List Char) := do
  let rest ← afterDigits Char.isDigit s
  let digits := s.take (s.length - rest.length)
  match rest with
  | '.' :: r => afterFraction r
  | _ =>
    let goesOn := match rest with
      | c :: _ => ['e', 'E', 'j', 'J'].contains c
      | [] => false
    if digits.head? == some '0' && !goesOn && digits.any (fun c => c != '0' && c != '_') then none
    else afterExponent rest

/-- What follows a number that begins with a digit. -/
def afterNumber (s : List Char) : Option (List Char) :=
  match s with
  | '0' :: c :: r =>
    if c == 'x' || c == 'X' then afterBase isHexDigit r
    else if c == 'o' || c == 'O' then afterBase (fun d => '0' ≤ d && d ≤ '7') r
    else if c == 'b' || c == 'B' then afterBase (fun d => d == '0' || d == '1') r
    else afterDecimal s
  | _ => afterDecimal s

/-- What follows a text in single quotes. It ends on its line unless a backslash goes before. -/
def afterShortText (quote : Char) : List Char → Option (List Char)
  | [] => none
  | '\\' :: _ :: s => afterShortText quote s
  | c :: s =>
    if c = quote then some s else if c = '\n' then none else afterShortText quote s

/-- What follows a text in triple quotes. -/
def afterLongText (quote : Char) : List Char → Option (List Char)
  | [] => none
  | '\\' :: _ :: s => afterLongText quote s
  | c :: s =>
    if c = quote && [quote, quote].isPrefixOf s then some (s.drop 2) else afterLongText quote s

/-- What follows a quoted text that begins with its quotes. -/
def afterText (s : List Char) : Option (List Char) :=
  match s with
  | q :: r =>
    if [q, q].isPrefixOf r then afterLongText q (r.drop 2)
    else if r.head? = some q then some (r.drop 1)
    else afterShortText q r
  | [] => none

/-- Whether letters can stand in front of a quoted text. -/
def isTextMark (word : List Char) : Bool :=
  ["b", "r", "u", "f", "br", "rb", "fr", "rf"].contains
    (String.ofList (word.map Char.toLower))

/-- Whether a word can be a name. -/
def isNameWord (word : List Char) : Bool :=
  match word with
  | c :: cs => Text.isNameStart c && cs.all Text.isNamePart
  | [] => false

/-- The symbol that a text begins with. -/
def symbol? (s : List Char) : Option String :=
  symbols.find? fun w => w.toList.isPrefixOf s

/-- The number of line feeds in a text. -/
def lineFeeds (s : List Char) : Nat :=
  s.count '\n'

/-- The indentation of a line in both measures, and what follows it. A joined line is indented as its
first line is, if that is indented at all. -/
def indentation (joined wide narrow line : Nat) :
    List Char → Option ((Nat × Nat) × Nat × List Char)
  | ' ' :: s => indentation joined (wide + 1) (narrow + 1) line s
  | '\t' :: s => indentation joined ((wide / 8 + 1) * 8) (narrow + 1) line s
  | '\x0c' :: s => indentation joined 0 0 line s
  | '\\' :: s =>
    match s with
    | '\n' :: r =>
      if r.isEmpty then none
      else indentation (if joined = 0 then wide else joined) wide narrow (line + 1) r
    | _ => none
  | s => some (if joined = 0 then (wide, narrow) else (joined, joined), line, s)

/-- How deep lines may be indented. -/
def maxIndents : Nat := 100

/-- How deep brackets may be nested. -/
def maxBrackets : Nat := 200

/-- A token without text on one line. -/
def layout (kind : TokenKind) (line : Nat) : Token :=
  ⟨kind, "", line, line⟩

/-- Leave blocks until the indentation fits; the widths of the blocks are innermost first. -/
def leaveBlocks (width : Nat × Nat) (line : Nat) :
    List (Nat × Nat) → List Token → Option (List (Nat × Nat) × List Token)
  | [], _ => none
  | b :: outer, tokens =>
    if width.1 < b.1 then leaveBlocks width line outer (layout .dedent line :: tokens)
    else if width = b then some (b :: outer, tokens)
    else none

/-- The blocks after a line with an indentation, and the tokens for the change. Tokens are in
reverse. -/
def changeBlocks (width : Nat × Nat) (line : Nat) (blocks : List (Nat × Nat))
    (tokens : List Token) : Option (List (Nat × Nat) × List Token) :=
  match blocks with
  | [] => none
  | b :: _ =>
    if b.1 < width.1 then
      if width.2 ≤ b.2 || maxIndents ≤ blocks.length then none
      else some (width :: blocks, layout .indent line :: tokens)
    else leaveBlocks width line blocks tokens

/-- The state of reading: brackets to close, widths of open blocks innermost first, the line, whether a
line begins, and the tokens so far in reverse. -/
structure Reading where
  brackets : List Char := []
  blocks : List (Nat × Nat) := [(0, 0)]
  line : Nat
  fresh : Bool := true
  tokens : List Token := []

/-- Add a token with a text that ends before `rest`. -/
def Reading.push (r : Reading) (kind : TokenKind) (text : List Char) : Reading :=
  let endLine := r.line + lineFeeds text
  { r with line := endLine, tokens := ⟨kind, String.ofList text, r.line, endLine⟩ :: r.tokens }

/-- Note the brackets that a symbol opens or closes. -/
def Reading.bracket (r : Reading) (w : String) : Option Reading :=
  match w.toList with
  | [c] =>
    match closing c with
    | some d =>
      if maxBrackets ≤ r.brackets.length then none else some { r with brackets := d :: r.brackets }
    | none =>
      if isClosing c then
        match r.brackets with
        | d :: outer => if c = d then some { r with brackets := outer } else none
        | [] => none
      else some r
  | _ => some r

/-- Begin a line: measure its indentation unless it holds no token. -/
def beginLine (r : Reading) (s : List Char) : Option (Reading × List Char) := do
  let (width, line, rest) ← indentation 0 0 0 r.line s
  match rest with
  | '\n' :: t => some ({ r with line := line + 1 }, t)
  | '#' :: t =>
    let after := t.dropWhile (· != '\n')
    some ({ r with line := line + 1 }, after.drop 1)
  | _ =>
    let width := if rest.isEmpty then (0, 0) else width
    let (blocks, tokens) ← changeBlocks width line r.blocks r.tokens
    some ({ r with line := line, blocks := blocks, tokens := tokens, fresh := false }, rest)

/-- Read a word: a name, a keyword or the letters in front of a quoted text. -/
def readWord (r : Reading) (s : List Char) : Option (Reading × List Char) :=
  let word := s.takeWhile isWordPart
  let rest := s.dropWhile isWordPart
  let quoted := match rest with
    | c :: _ => (c == '"' || c == '\'') && isTextMark word
    | [] => false
  if quoted then
    (afterText rest).map fun t => (r.push .text (s.take (s.length - t.length)), t)
  else if keywords.contains (String.ofList word) then some (r.push .keyword word, rest)
  else if isNameWord word then some (r.push .name word, rest)
  else none

/-- Read what begins inside a line with the character `c`. -/
def readToken (r : Reading) (c : Char) (s : List Char) : Option (Reading × List Char) :=
  let all := c :: s
  if c == ' ' || c == '\t' || c == '\x0c' then some (r, s)
  else if c == '#' then some (r, all.dropWhile (· != '\n'))
  else if c == '\n' then
    if r.brackets.isEmpty then
      some ({ r with line := r.line + 1, fresh := true,
                     tokens := layout .newline r.line :: r.tokens }, s)
    else some ({ r with line := r.line + 1 }, s)
  else if c == '\\' then
    match s with
    | '\n' :: t => if t.isEmpty then none else some ({ r with line := r.line + 1 }, t)
    | _ => none
  else if c.isDigit || (c == '.' && s.head?.any Char.isDigit) then
    let rest := if c == '.' then afterFraction s else afterNumber all
    rest.map fun t => (r.push .number (all.take (all.length - t.length)), t)
  else if c == '"' || c == '\'' then
    (afterText all).map fun t => (r.push .text (all.take (all.length - t.length)), t)
  else if isWordPart c then readWord r all
  else
    match symbol? all with
    | some w => (r.bracket w).map fun r => (r.push .symbol w.toList, all.drop w.length)
    | none => none

/-- Read all tokens of a text, in at most `fuel` steps. -/
def readAll : Nat → Reading → List Char → Option (List Token)
  | 0, _, _ => none
  | fuel + 1, r, s =>
    match s with
    | [] =>
      if !r.brackets.isEmpty then none
      else (changeBlocks (0, 0) r.line r.blocks r.tokens).map fun b => b.2.reverse
    | c :: t => do
      let (r, rest) ← if r.fresh then beginLine r s else readToken r c t
      readAll fuel r rest

/-- A text whose last line is ended. -/
def withFinalLineFeed (s : List Char) : List Char :=
  if s.getLast? = some '\n' then s else s ++ ['\n']

/-- The tokens of a text whose first line has a given number. A null character is an error. Every step
but the beginning of a line consumes something, so twice the length is enough steps. -/
def tokens? (line : Nat) (s : List Char) : Option (List Token) :=
  if s.contains '\x00' then none
  else
    let text := withFinalLineFeed (Text.withLineFeeds s)
    readAll (2 * text.length + 2) { line := line } text

end RepoAtlas.Grammar
