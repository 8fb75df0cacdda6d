import ObjectBridge.Toml.Text

/-! Numbers, dates and times of TOML texts. Only their form and range are checked; each reader
gives the characters after what it accepts. -/
namespace ObjectBridge.Toml

/-- Digits, where an underscore may stand between two of them. -/
def digitRun (isDigit : Char → Bool) : Nat → Reader (List Char)
  | 0, _ => none
  | fuel + 1, s =>
    match s with
    | c :: rest =>
      if isDigit c then
        let next := match rest with
          | '_' :: more => digitRun isDigit fuel more
          | d :: _ => if isDigit d then digitRun isDigit fuel rest else some ([], rest)
          | [] => some ([], [])
        next.map fun (cs, rest) => (c :: cs, rest)
      else none
    | [] => none

def digits (isDigit : Char → Bool) (s : List Char) : Option (List Char × List Char) :=
  digitRun isDigit (s.length + 1) s

/-- Is there a minus sign, and what follows the sign? -/
def sign : List Char → Bool × List Char
  | '+' :: rest => (false, rest)
  | '-' :: rest => (true, rest)
  | s => (false, s)

/-- A leading zero stands alone. -/
def decimalDigits : Reader (List Char)
  | '0' :: rest => some (['0'], rest)
  | s => digits Char.isDigit s

def inBase (base : Nat) (cs : List Char) : Nat :=
  cs.foldl (fun n c => n * base + (hexValue? c).getD 0) 0

/-- One more than the largest signed integer of 64 bits. -/
def integerBound : Nat := Nat.pow 2 63

/-- The magnitude in a base, within signed integers of 64 bits. -/
def integerIn (base : Nat) (isDigit : Char → Bool) (s : List Char) : Option (List Char) :=
  match digits isDigit s with
  | some (cs, rest) => if inBase base cs < integerBound then some rest else none
  | none => none

def integer (s : List Char) : Option (List Char) :=
  match s with
  | '0' :: 'x' :: rest => integerIn 16 (fun c => (hexValue? c).isSome) rest
  | '0' :: 'o' :: rest => integerIn 8 (fun c => '0' ≤ c && c ≤ '7') rest
  | '0' :: 'b' :: rest => integerIn 2 (fun c => c == '0' || c == '1') rest
  | _ =>
    let (negative, s) := sign s
    match decimalDigits s with
    | some (cs, rest) =>
      let n := inBase 10 cs
      if n < integerBound ∨ (negative ∧ n = integerBound) then some rest else none
    | none => none

/-- Does `n * 10 ^ e` round to a finite number? The largest finite one is half a place below
`2 ^ 1024 - 2 ^ 970`. -/
def isFinite (n : Nat) (e : Int) : Bool :=
  let places := (toString n).length + e
  n = 0 || places < 300 ||
    (places < 320 && n * Nat.pow 10 e.toNat <
      (Nat.pow 2 1024 - Nat.pow 2 970) * Nat.pow 10 (-e).toNat)

def fraction : Reader (List Char)
  | '.' :: rest => digits Char.isDigit rest
  | _ => none

def exponent : Reader Int
  | c :: rest =>
    if c = 'e' ∨ c = 'E' then
      let (negative, rest) := sign rest
      (digits Char.isDigit rest).map fun (cs, rest) =>
        (if negative then -(inBase 10 cs : Int) else inBase 10 cs, rest)
    else none
  | [] => none

def infinityOrNan : List Char → Option (List Char)
  | 'i' :: 'n' :: 'f' :: rest => some rest
  | 'n' :: 'a' :: 'n' :: rest => some rest
  | _ => none

/-- A fraction, an exponent or both follow the digits. A positive number must be finite. -/
def decimalFloat (s : List Char) : Option (List Char) := do
  let (negative, s) := sign s
  let (whole, s) ← decimalDigits s
  let (places, scale, rest) ← match exponent s with
    | some (scale, rest) => some ([], scale, rest)
    | none =>
      match fraction s with
      | some (places, rest) =>
        match exponent rest with
        | some (scale, rest) => some (places, scale, rest)
        | none => some (places, 0, rest)
      | none => none
  if negative || isFinite (inBase 10 (whole ++ places)) (scale - places.length) then some rest
  else none

def float (s : List Char) : Option (List Char) :=
  (decimalFloat s).or (infinityOrNan (sign s).2)

/-- Exactly `count` digits, with a value in a range. -/
def fixedDigits (count low high : Nat) (s : List Char) : Option (Nat × List Char) :=
  let cs := s.take count
  let n := inBase 10 cs
  if cs.length = count ∧ cs.all Char.isDigit ∧ low ≤ n ∧ n ≤ high then
    some (n, s.drop count)
  else none

def exactly (c : Char) : List Char → Option (List Char)
  | d :: rest => if c = d then some rest else none
  | [] => none

def daysIn (year month : Nat) : Nat :=
  if month = 2 then
    if year % 4 = 0 ∧ (year % 100 ≠ 0 ∨ year % 400 = 0) then 29 else 28
  else if month = 4 ∨ month = 6 ∨ month = 9 ∨ month = 11 then 30
  else 31

def date (s : List Char) : Option (List Char) := do
  let (year, s) ← fixedDigits 4 0 9999 s
  let s ← exactly '-' s
  let (month, s) ← fixedDigits 2 1 12 s
  let s ← exactly '-' s
  let (_, s) ← fixedDigits 2 1 (daysIn year month) s
  return s

/-- Hours, minutes and seconds; a leap second and a fraction are allowed. -/
def time (s : List Char) : Option (List Char) := do
  let (_, s) ← fixedDigits 2 0 23 s
  let s ← exactly ':' s
  let (_, s) ← fixedDigits 2 0 59 s
  let s ← exactly ':' s
  let (_, s) ← fixedDigits 2 0 60 s
  match s with
  | '.' :: rest =>
    match rest.span Char.isDigit with
    | ([], _) => none
    | (_, rest) => return rest
  | _ => return s

def offset : List Char → Option (List Char)
  | 'Z' :: rest => some rest
  | 'z' :: rest => some rest
  | c :: rest =>
    if c = '+' ∨ c = '-' then do
      let (_, s) ← fixedDigits 2 0 23 rest
      let s ← exactly ':' s
      let (_, s) ← fixedDigits 2 0 59 s
      return s
    else some (c :: rest)
  | [] => some []

/-- The time of day that may follow a date. -/
def afterDate (s : List Char) : Option (List Char) :=
  match s with
  | c :: rest =>
    if c = 'T' ∨ c = 't' ∨ c = ' ' then
      match time rest with
      | some rest => offset rest
      | none => some s
    else some s
  | [] => some []

def dateOrTime (s : List Char) : Option (List Char) :=
  match date s with
  | some rest => afterDate rest
  | none => time s

/-- A number, a date or a time. -/
def number (s : List Char) : Option (List Char) := (dateOrTime s).or ((float s).or (integer s))

end ObjectBridge.Toml
