/-! The lexemes of a JSON text, read from bytes. Strings are kept as they stand between their
quotes: only escapes and control characters are looked at, so that a reader may skip a string
that it has no use for without decoding it. -/
namespace ObjectBridge.Json

inductive Lexeme where
  | beginArray
  | endArray
  | beginObject
  | endObject
  | comma
  | colon
  | null
  | bool (b : Bool)
  | number (literal : List UInt8)
  | string (raw : List UInt8)
  deriving DecidableEq

def isBlank (c : UInt8) : Bool := c == 0x20 || c == 0x09 || c == 0x0A || c == 0x0D

def isDigit (c : UInt8) : Bool := 0x30 ≤ c && c ≤ 0x39

def isHexDigit (c : UInt8) : Bool :=
  isDigit c || (0x41 ≤ c && c ≤ 0x46) || (0x61 ≤ c && c ≤ 0x66)

/-- The characters that may follow a backslash by themselves: quote, backslash, slash and the
letters `b`, `f`, `n`, `r`, `t`. -/
def isSimpleEscape (c : UInt8) : Bool :=
  c == 0x22 || c == 0x5C || c == 0x2F || c == 0x62 || c == 0x66 || c == 0x6E || c == 0x72 ||
    c == 0x74

/-- The bytes up to the closing quote, and those after it. -/
def stringBody (before : List UInt8) : List UInt8 → Option (List UInt8 × List UInt8)
  | [] => none
  | 0x22 :: rest => some (before.reverse, rest)
  | 0x5C :: 0x75 :: a :: b :: c :: d :: rest =>
    if isHexDigit a && isHexDigit b && isHexDigit c && isHexDigit d then
      stringBody (d :: c :: b :: a :: 0x75 :: 0x5C :: before) rest
    else none
  | 0x5C :: c :: rest => if isSimpleEscape c then stringBody (c :: 0x5C :: before) rest else none
  | c :: rest => if c < 0x20 then none else stringBody (c :: before) rest

/-- A run of at least one digit. -/
def digits (s : List UInt8) : Option (List UInt8 × List UInt8) :=
  match s.span isDigit with
  | ([], _) => none
  | found => some found

/-- A leading zero stands alone. -/
def wholePart : List UInt8 → Option (List UInt8 × List UInt8)
  | 0x30 :: rest => some ([0x30], rest)
  | s => digits s

def fractionPart : List UInt8 → Option (List UInt8 × List UInt8)
  | 0x2E :: rest => (digits rest).map fun (run, rest) => (0x2E :: run, rest)
  | s => some ([], s)

def exponentSign : List UInt8 → List UInt8 × List UInt8
  | 0x2B :: rest => ([0x2B], rest)
  | 0x2D :: rest => ([0x2D], rest)
  | s => ([], s)

def exponentPart : List UInt8 → Option (List UInt8 × List UInt8)
  | c :: rest =>
    if c == 0x65 || c == 0x45 then
      let (sign, rest) := exponentSign rest
      (digits rest).map fun (run, rest) => (c :: sign ++ run, rest)
    else some ([], c :: rest)
  | [] => some ([], [])

def magnitude (s : List UInt8) : Option (List UInt8 × List UInt8) := do
  let (whole, s) ← wholePart s
  let (fraction, s) ← fractionPart s
  let (exponent, s) ← exponentPart s
  return (whole ++ fraction ++ exponent, s)

def number : List UInt8 → Option (List UInt8 × List UInt8)
  | 0x2D :: rest => (magnitude rest).map fun (literal, rest) => (0x2D :: literal, rest)
  | s => magnitude s

/-- The lexeme at the start of a text that starts with no blank. -/
def lexeme : List UInt8 → Option (Lexeme × List UInt8)
  | 0x5B :: rest => some (.beginArray, rest)
  | 0x5D :: rest => some (.endArray, rest)
  | 0x7B :: rest => some (.beginObject, rest)
  | 0x7D :: rest => some (.endObject, rest)
  | 0x2C :: rest => some (.comma, rest)
  | 0x3A :: rest => some (.colon, rest)
  | 0x6E :: 0x75 :: 0x6C :: 0x6C :: rest => some (.null, rest)
  | 0x74 :: 0x72 :: 0x75 :: 0x65 :: rest => some (.bool true, rest)
  | 0x66 :: 0x61 :: 0x6C :: 0x73 :: 0x65 :: rest => some (.bool false, rest)
  | 0x22 :: rest => (stringBody [] rest).map fun (raw, rest) => (.string raw, rest)
  | s => (number s).map fun (literal, rest) => (.number literal, rest)

/-- Lexemes found so far come newest first. Every lexeme takes a byte, so fuel for one more
than the bytes is enough. -/
def lexemesFrom (found : List Lexeme) : Nat → List UInt8 → Option (List Lexeme)
  | 0, _ => none
  | fuel + 1, s =>
    match s.dropWhile isBlank with
    | [] => some found.reverse
    | start =>
      match lexeme start with
      | none => none
      | some (found', rest) => lexemesFrom (found' :: found) fuel rest

def lexemes (s : List UInt8) : Option (List Lexeme) := lexemesFrom [] (s.length + 1) s

end ObjectBridge.Json
