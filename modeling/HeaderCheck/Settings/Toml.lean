import HeaderCheck.Text.Basic

/-! Flat TOML documents: keys with a string or a boolean as value, blank lines and comments. Tables,
dotted keys and other values are refused together with what is no TOML. Readers give the value read
and the text behind it; those that may go round again take a bound on the number of rounds, and the
length of the text is enough for it. -/

namespace HeaderCheck.Toml

inductive Value where
  | string (t : Text)
  | boolean (b : Bool)
  deriving DecidableEq, Repr

def isSpace (c : Char) : Bool := c == ' ' || c == '\t'

/-- Characters that may stand in a comment, and in a string unless they are special there. -/
def isPlain (c : Char) : Bool := c == '\t' || (decide (0x20 ≤ c.toNat) && c.toNat != 0x7F)

def isBareKeyChar (c : Char) : Bool := c.isAlphanum || c == '_' || c == '-'

def skipSpaces (t : Text) : Text := t.dropWhile isSpace

/-- The text behind a comment and its line ending. -/
def afterComment : Text → Option Text
  | [] => some []
  | '\n' :: rest => some rest
  | '\r' :: '\n' :: rest => some rest
  | c :: rest => if isPlain c then afterComment rest else none

/-- The text behind the end of the line, where only blanks and a comment may be left. -/
def afterLineEnd (t : Text) : Option Text :=
  match skipSpaces t with
  | [] => some []
  | '\n' :: rest => some rest
  | '\r' :: '\n' :: rest => some rest
  | '#' :: rest => afterComment rest
  | _ => none

def hexValue? (c : Char) : Option Nat :=
  if c.isDigit then some (c.toNat - 0x30)
  else if 'a' ≤ c ∧ c ≤ 'f' then some (c.toNat - 0x57)
  else if 'A' ≤ c ∧ c ≤ 'F' then some (c.toNat - 0x37)
  else none

/-- The character whose code point is written in the first `count` hexadecimal digits. -/
def codePoint? (count : Nat) (t : Text) : Option (Char × Text) :=
  if t.length < count then none
  else
    let value := (t.take count).foldlM (fun n c => (hexValue? c).map (16 * n + ·)) 0
    value.bind fun n => if n.isValidChar then some (Char.ofNat n, t.drop count) else none

/-- The character that is written behind a backslash. -/
def escaped? : Text → Option (Char × Text)
  | [] => none
  | c :: rest =>
    if c = 'u' then codePoint? 4 rest
    else if c = 'U' then codePoint? 8 rest
    else if c = 'x' then codePoint? 2 rest
    else (([('b', '\x08'), ('t', '\t'), ('n', '\n'), ('f', '\x0c'), ('r', '\r'), ('e', '\x1b'),
      ('\x22', '\x22'), ('\x5c', '\x5c')] : List (Char × Char)).lookup c).map (·, rest)

/-- Puts characters in front of a string that is read to its end. -/
def prepend (cs : Text) (read : Option (Text × Text)) : Option (Text × Text) :=
  read.map fun (s, rest) => (cs ++ s, rest)

/-- A string in double quotes, behind the opening quote. -/
def basicString : Nat → Text → Option (Text × Text)
  | 0, _ => none
  | _ + 1, [] => none
  | rounds + 1, c :: rest =>
    if c = '\x22' then some ([], rest)
    else if c = '\x5c' then
      (escaped? rest).bind fun (e, rest) => prepend [e] (basicString rounds rest)
    else if isPlain c then prepend [c] (basicString rounds rest)
    else none

/-- A string in single quotes, behind the opening quote. Nothing in it is special. -/
def literalString : Text → Option (Text × Text)
  | [] => none
  | c :: rest =>
    if c = '\x27' then some ([], rest)
    else if isPlain c then prepend [c] (literalString rest)
    else none

/-- The text behind a line break at its front, which does not belong to a string. -/
def skipBreak : Text → Text
  | '\n' :: rest => rest
  | '\r' :: '\n' :: rest => rest
  | t => t

/-- The text behind the blanks and line breaks at its front. -/
def skipBlankLines : Text → Text
  | '\n' :: rest => skipBlankLines rest
  | '\r' :: '\n' :: rest => skipBlankLines rest
  | c :: rest => if isSpace c then skipBlankLines rest else c :: rest
  | [] => []

/-- The text behind a line break that a backslash takes away, with all blanks around it. -/
def afterJoinedLines (t : Text) : Option Text :=
  match skipSpaces t with
  | '\n' :: rest => some (skipBlankLines rest)
  | '\r' :: '\n' :: rest => some (skipBlankLines rest)
  | _ => none

/-- The end of a string in three quotes: at most two more quotes still belong to it. -/
def closing? (quote : Char) (t : Text) : Option (Text × Text) :=
  let quotes := (t.takeWhile (· == quote)).length
  if quotes < 3 then none
  else
    let inside := min (quotes - 3) 2
    some (t.take inside, t.drop (inside + 3))

/-- A string in three quotes of the given kind, behind the opening quotes and the line break that
may follow them. Only double quotes give the backslash a meaning. -/
def longString (quote : Char) : Nat → Text → Option (Text × Text)
  | 0, _ => none
  | _ + 1, [] => none
  | rounds + 1, c :: rest =>
    match closing? quote (c :: rest) with
    | some found => some found
    | none =>
      if c = '\x5c' ∧ quote = '\x22' then
        match afterJoinedLines rest with
        | some rest => longString quote rounds rest
        | none => (escaped? rest).bind fun (e, rest) => prepend [e] (longString quote rounds rest)
      else if c = '\n' then prepend [c] (longString quote rounds rest)
      else if c = '\r' then
        match rest with
        | '\n' :: rest => prepend ['\r', '\n'] (longString quote rounds rest)
        | _ => none
      else if isPlain c then prepend [c] (longString quote rounds rest)
      else none

def string? (t : Text) : Option (Text × Text) :=
  match t with
  | '\x22' :: '\x22' :: '\x22' :: rest => longString '\x22' (t.length + 1) (skipBreak rest)
  | '\x27' :: '\x27' :: '\x27' :: rest => longString '\x27' (t.length + 1) (skipBreak rest)
  | '\x22' :: rest => basicString (t.length + 1) rest
  | '\x27' :: rest => literalString rest
  | _ => none

def value? (t : Text) : Option (Value × Text) :=
  match string? t with
  | some (s, rest) => some (.string s, rest)
  | none =>
    if "true".toList.isPrefixOf t then some (.boolean true, t.drop 4)
    else if "false".toList.isPrefixOf t then some (.boolean false, t.drop 5)
    else none

def key? (t : Text) : Option (Text × Text) :=
  match t with
  | '\x22' :: rest => basicString (t.length + 1) rest
  | '\x27' :: rest => literalString rest
  | _ => if (t.takeWhile isBareKeyChar).isEmpty then none
    else some (t.takeWhile isBareKeyChar, t.dropWhile isBareKeyChar)

/-- A key, an equals sign, a value and the end of the line. -/
def pair? (t : Text) : Option ((Text × Value) × Text) :=
  (key? (skipSpaces t)).bind fun (key, rest) =>
    match skipSpaces rest with
    | '=' :: rest => (value? (skipSpaces rest)).bind fun (value, rest) =>
      (afterLineEnd rest).map fun rest => ((key, value), rest)
    | _ => none

def pairsWithin : Nat → Text → Option (List (Text × Value))
  | 0, _ => none
  | rounds + 1, t =>
    if t = [] then some []
    else match afterLineEnd t with
      | some rest => pairsWithin rounds rest
      | none => (pair? t).bind fun (pair, rest) => (pairsWithin rounds rest).map (pair :: ·)

/-- The pairs of a document, in order. A byte order mark in front does not count. -/
def pairs? (document : Text) : Option (List (Text × Value)) :=
  let t := match document with
    | '\ufeff' :: rest => rest
    | t => t
  pairsWithin (t.length + 1) t

end HeaderCheck.Toml
