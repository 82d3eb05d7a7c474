import RepoAtlas.Grammar.Lexer
import RepoAtlas.Text.CharacterName

/-!
# Quoted texts

A quoted text stands for characters, for bytes, or for a format with expressions in braces. Letters
in front of the quotes tell which, and whether backslashes are escapes. Code points that are no
characters can be written, so a text is a list of code points.
-/

namespace RepoAtlas.Grammar

/-- An expression in a format: its text and the line on which it begins. -/
structure Slot where
  text : List Char
  line : Nat
  deriving Repr

/-- What a quoted text stands for. -/
inductive Quoted where
  | characters (codes : List Nat)
  | bytes
  | format (slots : List Slot)
  deriving Repr

/-- The value of a hexadecimal digit. -/
def hexValue (c : Char) : Nat :=
  if c.isDigit then c.toNat - '0'.toNat
  else if 'a' ≤ c && c ≤ 'f' then c.toNat - 'a'.toNat + 10
  else c.toNat - 'A'.toNat + 10

/-- The number that exactly `n` hexadecimal digits stand for, and what follows. -/
def hexadecimal? (n : Nat) (s : List Char) : Option (Nat × List Char) :=
  let digits := s.take n
  if digits.length = n && digits.all isHexDigit then
    some (digits.foldl (fun v d => v * 16 + hexValue d) 0, s.drop n)
  else none

/-- The number that at most three octal digits stand for, and what follows. -/
def octal (s : List Char) : Nat × List Char :=
  let digits := (s.take 3).takeWhile fun d => '0' ≤ d && d ≤ '7'
  (digits.foldl (fun v d => v * 8 + (d.toNat - '0'.toNat)) 0, s.drop digits.length)

/-- The character that a letter after a backslash stands for. -/
def simpleEscape : Char → Option Char
  | '\\' => some '\\'
  | '\'' => some '\''
  | '"' => some '"'
  | 'a' => some '\x07'
  | 'b' => some '\x08'
  | 'f' => some '\x0c'
  | 'n' => some '\n'
  | 'r' => some '\r'
  | 't' => some '\t'
  | 'v' => some '\x0b'
  | _ => none

/-- The code that an escape with the letter `c` stands for, if it is one, and what follows. -/
def escape? (c : Char) (s : List Char) : Option (Option (Nat × List Char)) :=
  if let some d := simpleEscape c then some (some (d.toNat, s))
  else if '0' ≤ c && c ≤ '7' then some (some (octal (c :: s)))
  else if c == 'x' then (hexadecimal? 2 s).map some
  else if c == 'u' then (hexadecimal? 4 s).map some
  else if c == 'U' then
    ((hexadecimal? 8 s).filter fun v => v.1 ≤ 0x10ffff).map some
  else if c == 'N' then
    match s with
    | '\x7b' :: r =>
      match r.dropWhile (· != '\x7d') with
      | _ :: rest =>
        (Text.characterNamed? (String.ofList (r.takeWhile (· != '\x7d')))).map fun v =>
          some (v, rest)
      | [] => none
    | _ => none
  else some none

/-- The code points of a text with escapes. A backslash that begins no escape stands for itself; an
escape that is not complete is an error. -/
def unescape : Nat → List Char → Option (List Nat)
  | 0, _ => some []
  | _, [] => some []
  | fuel + 1, '\\' :: '\n' :: s => unescape fuel s
  | fuel + 1, '\\' :: c :: s => do
    match ← escape? c s with
    | some (v, rest) => .some (v :: (← unescape fuel rest))
    | none => .some ('\\'.toNat :: c.toNat :: (← unescape fuel s))
  | fuel + 1, c :: s => (unescape fuel s).map (c.toNat :: ·)

/-- The code points of the body of a text. -/
def bodyCodes (raw : Bool) (s : List Char) : Option (List Nat) :=
  if raw then some (s.map Char.toNat) else unescape s.length s

/-- Whether the escapes in the body of bytes are complete. -/
def bytesComplete : List Char → Bool
  | '\\' :: 'x' :: s => (hexadecimal? 2 s).isSome && bytesComplete s
  | '\\' :: _ :: s => bytesComplete s
  | _ :: s => bytesComplete s
  | [] => true

/-- The text of a format up to an expression or its end, and what follows. In the outermost format a
doubled brace stands for itself and a single closing brace is an error. -/
def formatText (raw outermost : Bool) : List Char → Option (List Char × List Char)
  | [] => some ([], [])
  | '\\' :: c :: s =>
    if raw then (formatText raw outermost (c :: s)).map fun p => ('\\' :: p.1, p.2)
    else if c == '\x7b' || c == '\x7d' then
      (formatText raw outermost (c :: s)).map fun p => ('\\' :: p.1, p.2)
    else if c == 'N' then
      match s with
      | '\x7b' :: r =>
        let name := r.takeWhile (· != '\x7d')
        match _h : r.dropWhile (· != '\x7d') with
        | d :: rest =>
          (formatText raw outermost rest).map fun p =>
            ('\\' :: 'N' :: '\x7b' :: (name ++ d :: p.1), p.2)
        | [] => none
      | _ => none
    else (formatText raw outermost s).map fun p => ('\\' :: c :: p.1, p.2)
  | c :: s =>
    if c == '\x7b' || c == '\x7d' then
      if outermost then
        match s with
        | d :: r =>
          if d = c then (formatText raw outermost r).map fun p => (c :: p.1, p.2)
          else if c == '\x7d' then none else some ([], c :: s)
        | [] => if c == '\x7d' then none else some ([], c :: s)
      else some ([], c :: s)
    else (formatText raw outermost s).map fun p => (c :: p.1, p.2)
termination_by s => s.length
decreasing_by
  all_goals first
    | decreasing_tactic
    | have hrest := (List.dropWhile_sublist (p := fun x => x != '\x7d') (l := r)).length_le
      rw [_h, List.length_cons] at hrest
      simp only [List.length_cons]
      omega

/-- How the text of an expression is being read: the quote of an open text, whether it is tripled, and
the brackets to close. -/
structure SlotReading where
  quote : Option (Char × Bool) := none
  brackets : List Char := []

/-- Whether a character ends an expression outside brackets: a conversion, a format, the end of the
slot or a display mark. -/
def endsSlot (c : Char) : Bool :=
  c == '!' || c == ':' || c == '\x7d' || c == '='

/-- The text of an expression in a format and what follows it, which is never empty. Backslashes and
comments are errors everywhere in it. -/
def slotText (k : SlotReading) : List Char → Option (List Char × List Char)
  | [] => none
  | c :: s =>
    let go (k : SlotReading) (front : List Char) (r : List Char) (_ : r.length ≤ s.length) :=
      (slotText k r).map fun p => (front ++ p.1, p.2)
    let drop2 : (s.drop 2).length ≤ s.length := by simp
    let drop1 : (s.drop 1).length ≤ s.length := by simp
    if c == '\\' then none
    else
      match k.quote with
      | some (q, tripled) =>
        if c != q then go k [c] s (Nat.le_refl _)
        else if !tripled then go { k with quote := none } [c] s (Nat.le_refl _)
        else if [q, q].isPrefixOf s then go { k with quote := none } [c, q, q] (s.drop 2) drop2
        else go k [c] s (Nat.le_refl _)
      | none =>
        if c == '"' || c == '\'' then
          if [c, c].isPrefixOf s then
            go { k with quote := some (c, true) } [c, c, c] (s.drop 2) drop2
          else go { k with quote := some (c, false) } [c] s (Nat.le_refl _)
        else if c == '#' then none
        else if let some d := closing c then
          if maxBrackets ≤ k.brackets.length then none
          else go { k with brackets := d :: k.brackets } [c] s (Nat.le_refl _)
        else
          match k.brackets with
          | d :: outer =>
            if isClosing c then
              if c = d then go { k with brackets := outer } [c] s (Nat.le_refl _) else none
            else go k [c] s (Nat.le_refl _)
          | [] =>
            if ['!', '=', '<', '>'].contains c && s.head? = some '=' then
              go k [c, '='] (s.drop 1) drop1
            else if endsSlot c then some ([], c :: s)
            else if isClosing c then none
            else go k [c] s (Nat.le_refl _)
termination_by s => s.length

/-- Whether a character is white space of the plainest kind. -/
def isPlainBlank (c : Char) : Bool :=
  [' ', '\t', '\n', '\r', '\x0b', '\x0c'].contains c

/-- Whether the text of an expression says nothing. -/
def isEmptySlot (s : List Char) : Bool :=
  s.all fun c => [' ', '\t', '\n', '\x0c'].contains c

/-- What follows a display mark, which white space may follow. -/
def afterDisplay : List Char → List Char
  | '=' :: s => s.dropWhile isPlainBlank
  | s => s

/-- What follows a conversion. -/
def afterConversion : List Char → Option (List Char)
  | '!' :: c :: s => if c == 's' || c == 'r' || c == 'a' then some s else none
  | '!' :: [] => none
  | s => some s

/-- The expressions of a format from a line on, in the order in which they are evaluated, and what
follows the format. The outermost format has level zero and ends with the text; the format of a slot
ends with a closing brace, and slots nest at most once. -/
def slots (raw : Bool) : Nat → Nat → Nat → List Char → Option (List Slot × List Char)
  | 0, _, _, _ => none
  | fuel + 1, level, line, s => do
    let (front, rest) ← formatText raw (level == 0) s
    let _ ← bodyCodes raw front
    match rest with
    | '\x7b' :: r =>
      if 2 ≤ level then none
      else
        let line := line + lineFeeds (s.take (s.length - rest.length))
        let (text, after) ← slotText {} r
        if isEmptySlot text then none
        else
          let after ← afterConversion (afterDisplay after)
          let lineOf (t : List Char) := line + lineFeeds (r.take (r.length - t.length))
          let (inner, after) ← match after with
            | ':' :: f => if f.isEmpty then none else slots raw fuel (level + 1) (lineOf f) f
            | t => some ([], t)
          match after with
          | '\x7d' :: t =>
            let (more, final) ← slots raw fuel level (lineOf t) t
            some (⟨text, line⟩ :: (inner ++ more), final)
          | _ => none
    | r => if level == 0 && !r.isEmpty then none else some ([], r)

/-- The letters in front of the quotes and the body between them. -/
def quotedParts (text : List Char) : List Char × List Char :=
  let mark := text.takeWhile fun c => c != '"' && c != '\''
  let quotes := text.drop mark.length
  let n := match quotes with
    | a :: b :: c :: _ :: _ :: _ => if a = b && b = c then 3 else 1
    | _ => 1
  (mark.map Char.toLower, (quotes.drop n).take (quotes.length - 2 * n))

/-- What a quoted text on a line stands for. -/
def quoted? (text : List Char) (line : Nat) : Option Quoted :=
  let (mark, body) := quotedParts text
  let raw := mark.contains 'r'
  if mark.contains 'b' then
    if body.all (·.toNat < 128) && (raw || bytesComplete body) then some .bytes else none
  else if mark.contains 'f' then
    (slots raw (body.length + 1) 0 line body).map fun p => .format p.1
  else (bodyCodes raw body).map .characters

end RepoAtlas.Grammar
