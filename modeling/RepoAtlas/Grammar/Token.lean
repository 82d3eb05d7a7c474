import RepoAtlas.Text.Word

/-!
# Tokens of Python source

A source is a sequence of tokens: words, numbers, quoted texts and symbols, and the ends of lines and
changes of indentation that structure them.
-/

namespace RepoAtlas.Grammar

/-- What a token is. -/
inductive TokenKind where
  | name
  | keyword
  | number
  /-- A quoted text with its quotes and the letters in front of them. -/
  | text
  | symbol
  /-- The end of a logical line. -/
  | newline
  | indent
  | dedent
  deriving DecidableEq, Repr

/-- A token with the lines on which it begins and ends, counted from one. -/
structure Token where
  kind : TokenKind
  text : String
  line : Nat
  endLine : Nat
  deriving Repr

/-- Whether a token belongs to the structure of lines and not to what they say. -/
def Token.isLayout (t : Token) : Bool :=
  match t.kind with
  | .newline | .indent | .dedent => true
  | _ => false

/-- Words that are not names. -/
def keywords : List String :=
  ["False", "None", "True", "and", "as", "assert", "async", "await", "break", "class", "continue",
    "def", "del", "elif", "else", "except", "finally", "for", "from", "global", "if", "import",
    "in", "is", "lambda", "nonlocal", "not", "or", "pass", "raise", "return", "try", "while",
    "with", "yield"]

/-- The symbols, longer ones before their beginnings. -/
def symbols : List String :=
  ["...", "**=", "//=", "<<=", ">>=", "!=", "%=", "&=", "**", "*=", "+=", "-=", "->", "//", "/=",
    ":=", "<<", "<=", "<>", "==", ">=", ">>", "@=", "^=", "|=", "(", ")", "[", "]", ",", ":", ";",
    "+", "-", "*", "/", "|", "&", "<", ">", "=", ".", "%", "~", "^", "@", "\x7b", "\x7d"]

/-- The bracket that closes what a bracket opens. -/
def closing : Char → Option Char
  | '(' => some ')'
  | '[' => some ']'
  | '\x7b' => some '\x7d'
  | _ => none

/-- Whether a character closes a bracket. -/
def isClosing (c : Char) : Bool :=
  c == ')' || c == ']' || c == '\x7d'

end RepoAtlas.Grammar
