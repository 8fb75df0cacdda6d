/-! The pieces of TOML texts: blanks, comments, line ends, strings and keys. Every reader takes
the characters still to be read and gives what it read with the characters after it. -/
namespace ObjectBridge.Toml

abbrev Reader (α : Type) := List Char → Option (α × List Char)

def isBlank (c : Char) : Bool := c == ' ' || c == '\t'

/-- Tabs and all printable or foreign characters; no other control character stands in a text. -/
def isText (c : Char) : Bool := c == '\t' || (' ' ≤ c && c ≠ '\x7f')

def isBare (c : Char) : Bool := c.isAlphanum || c == '-' || c == '_'

def skipBlanks (s : List Char) : List Char := s.dropWhile isBlank

/-- The text after a line end, if one comes next. -/
def lineEnd? : List Char → Option (List Char)
  | '\n' :: rest => some rest
  | '\r' :: '\n' :: rest => some rest
  | _ => none

def skipComment : List Char → List Char
  | '#' :: rest => rest.dropWhile isText
  | s => s

/-- Blanks, a comment and the end of the line or of the text. -/
def endOfLine (s : List Char) : Option (List Char) :=
  match skipComment (skipBlanks s) with
  | [] => some []
  | rest => lineEnd? rest

/-- Blanks and line ends. The fuel is more than the characters. -/
def skipLines : Nat → List Char → List Char
  | 0, s => s
  | fuel + 1, s =>
    let s := skipBlanks s
    match lineEnd? s with
    | some rest => skipLines fuel rest
    | none => s

/-- Blanks, line ends and comments, as they may stand between the items of an array. -/
def skipSpace : Nat → List Char → List Char
  | 0, s => s
  | fuel + 1, s =>
    let s := skipComment (skipBlanks s)
    match lineEnd? s with
    | some rest => skipSpace fuel rest
    | none => s

def hexValue? (c : Char) : Option Nat :=
  if c.isDigit then some (c.toNat - 48)
  else if 'a' ≤ c ∧ c ≤ 'f' then some (c.toNat - 87)
  else if 'A' ≤ c ∧ c ≤ 'F' then some (c.toNat - 55)
  else none

/-- The character of a code point given in hexadecimal; surrogates are none. -/
def codePoint? (digits : List Char) : Option Char := do
  let n ← digits.foldlM (fun n c => (hexValue? c).map (n * 16 + ·)) 0
  if n.isValidChar then some (Char.ofNat n) else none

def simpleEscape? : Char → Option Char
  | 'b' => some '\x08'
  | 't' => some '\t'
  | 'n' => some '\n'
  | 'f' => some '\x0c'
  | 'r' => some '\r'
  | '"' => some '"'
  | '\\' => some '\\'
  | _ => none

/-- The character of an escape, after its backslash. -/
def escape : Reader Char
  | 'u' :: rest =>
    if 4 ≤ rest.length then (codePoint? (rest.take 4)).map (·, rest.drop 4) else none
  | 'U' :: rest =>
    if 8 ≤ rest.length then (codePoint? (rest.take 8)).map (·, rest.drop 8) else none
  | c :: rest => (simpleEscape? c).map (·, rest)
  | [] => none

/-- A string in double quotes, after the first one. What was read comes newest first. -/
def basicString (read : List Char) : Nat → Reader (List Char)
  | 0, _ => none
  | fuel + 1, s =>
    match s with
    | '"' :: rest => some (read.reverse, rest)
    | '\\' :: rest =>
      match escape rest with
      | some (c, rest) => basicString (c :: read) fuel rest
      | none => none
    | c :: rest => if isText c then basicString (c :: read) fuel rest else none
    | [] => none

/-- A string in single quotes, after the first one. -/
def literalString (s : List Char) : Option (List Char × List Char) :=
  match s.span (fun c => isText c && c ≠ '\'') with
  | (content, '\'' :: rest) => some (content, rest)
  | _ => none

/-- After three closing quotes, up to two more still belong to the string before them. -/
def closing (quote : Char) (read s : List Char) : List Char × List Char :=
  match s with
  | a :: b :: rest =>
    if a = quote ∧ b = quote then ((quote :: quote :: read).reverse, rest)
    else if a = quote then ((quote :: read).reverse, b :: rest)
    else (read.reverse, s)
  | [a] => if a = quote then ((quote :: read).reverse, []) else (read.reverse, s)
  | [] => (read.reverse, [])

/-- A string in three double quotes, after these. A backslash at the end of a line takes away
all space up to the next character. -/
def basicLines (read : List Char) : Nat → Reader (List Char)
  | 0, _ => none
  | fuel + 1, s =>
    match s with
    | '"' :: '"' :: '"' :: rest => some (closing '"' read rest)
    | '\\' :: rest =>
      match lineEnd? (skipBlanks rest) with
      | some next => basicLines read fuel (skipLines (next.length + 1) next)
      | none =>
        match escape rest with
        | some (c, rest) => basicLines (c :: read) fuel rest
        | none => none
    | '\r' :: '\n' :: rest => basicLines ('\n' :: read) fuel rest
    | '\n' :: rest => basicLines ('\n' :: read) fuel rest
    | c :: rest => if isText c then basicLines (c :: read) fuel rest else none
    | [] => none

/-- A string in three single quotes, after these. -/
def literalLines (read : List Char) : Nat → Reader (List Char)
  | 0, _ => none
  | fuel + 1, s =>
    match s with
    | '\'' :: '\'' :: '\'' :: rest => some (closing '\'' read rest)
    | '\r' :: '\n' :: rest => literalLines ('\n' :: read) fuel rest
    | '\n' :: rest => literalLines ('\n' :: read) fuel rest
    | c :: rest => if isText c then literalLines (c :: read) fuel rest else none
    | [] => none

/-- A line end right after the opening quotes is no part of the string. -/
def afterOpening (s : List Char) : List Char := (lineEnd? s).getD s

/-- A string of any of the four forms. -/
def string (s : List Char) : Option (String × List Char) :=
  let content := match s with
    | '"' :: '"' :: '"' :: rest => basicLines [] (rest.length + 1) (afterOpening rest)
    | '"' :: rest => basicString [] (rest.length + 1) rest
    | '\'' :: '\'' :: '\'' :: rest => literalLines [] (rest.length + 1) (afterOpening rest)
    | '\'' :: rest => literalString rest
    | _ => none
  content.map fun (cs, rest) => (String.ofList cs, rest)

/-- One part of a key: bare, or a string on one line. -/
def keyPart : Reader String
  | '"' :: rest => (basicString [] (rest.length + 1) rest).map fun (cs, r) => (String.ofList cs, r)
  | '\'' :: rest => (literalString rest).map fun (cs, r) => (String.ofList cs, r)
  | s =>
    match s.span isBare with
    | ([], _) => none
    | (cs, rest) => some (String.ofList cs, rest)

def keyParts (read : List String) : Nat → Reader (List String)
  | 0, _ => none
  | fuel + 1, s =>
    match keyPart (skipBlanks s) with
    | none => none
    | some (part, rest) =>
      match skipBlanks rest with
      | '.' :: rest => keyParts (part :: read) fuel rest
      | rest => some ((part :: read).reverse, rest)

/-- Nothing in a text is nested as deep as this. -/
def depthLimit : Nat := 80

/-- The parts of a dotted key, with the blanks around them. -/
def keyPath (s : List Char) : Option (List String × List Char) :=
  match keyParts [] (s.length + 1) s with
  | some (path, rest) => if path.length < depthLimit then some (path, rest) else none
  | none => none

end ObjectBridge.Toml
