import ObjectBridge.Toml.Item

/-! Reading TOML texts as documents. -/
namespace ObjectBridge.Toml

/-- The items of an array after its bracket or a comma. A comma may follow the last one. -/
def arrayItems (item : Reader Item) (read : List Item) : Nat → Reader Item
  | 0, _ => none
  | fuel + 1, s =>
    let s := skipSpace (s.length + 1) s
    match s with
    | ']' :: rest => some (.array read.reverse, rest)
    | _ =>
      match item s with
      | none => none
      | some (found, rest) =>
        match skipSpace (rest.length + 1) rest with
        | ',' :: rest => arrayItems item (found :: read) fuel rest
        | ']' :: rest => some (.array (found :: read).reverse, rest)
        | _ => none

/-- Key, equals sign and value. -/
def keyValue (item : Reader Item) (s : List Char) :
    Option ((List String × Item) × List Char) := do
  let (path, s) ← keyPath s
  let s ← exactly '=' s
  let (found, s) ← item (skipBlanks s)
  return ((path, found), s)

/-- The entries of an inline table after its brace or a comma. -/
def inlineEntries (item : Reader Item) (entries : Entries) : Nat → Reader Item
  | 0, _ => none
  | fuel + 1, s =>
    match keyValue item s with
    | none => none
    | some ((path, found), rest) =>
      match entries.add path found with
      | none => none
      | some entries =>
        match skipBlanks rest with
        | ',' :: rest => inlineEntries item entries fuel rest
        | '}' :: rest => some (.table .inline entries, rest)
        | _ => none

def scalar (s : List Char) : Option (Item × List Char) :=
  match s with
  | '"' :: _ => (string s).map fun (text, rest) => (.string text, rest)
  | '\'' :: _ => (string s).map fun (text, rest) => (.string text, rest)
  | 't' :: 'r' :: 'u' :: 'e' :: rest => some (.bool true, rest)
  | 'f' :: 'a' :: 'l' :: 's' :: 'e' :: rest => some (.bool false, rest)
  | _ => (number s).map fun rest => (.scalar, rest)

/-- A value in which arrays and inline tables are nested at most so deep. -/
def value : Nat → Reader Item
  | 0, s => scalar s
  | _ + 1, [] => none
  | levels + 1, c :: rest =>
    if c = '[' then arrayItems (value levels) [] (rest.length + 1) rest
    else if c = '\x7b' then
      match skipBlanks rest with
      | '}' :: after => some (.table .inline [], after)
      | _ => inlineEntries (value levels) [] (rest.length + 1) rest
    else scalar (c :: rest)

/-- A document, and the path of the header under which lines stand. -/
structure State where
  root : Entries := []
  header : List String := []

def header (state : State) (s : List Char) : Option (State × List Char) :=
  match s with
  | '[' :: '[' :: rest => do
    let (path, rest) ← keyPath rest
    let rest ← exactly ']' rest
    let rest ← exactly ']' rest
    let rest ← endOfLine rest
    return (⟨← state.root.openElement path, path⟩, rest)
  | '[' :: rest => do
    let (path, rest) ← keyPath rest
    let rest ← exactly ']' rest
    let rest ← endOfLine rest
    return (⟨← state.root.openTable path, path⟩, rest)
  | _ => none

def keyValueLine (state : State) (s : List Char) : Option (State × List Char) := do
  let ((path, item), rest) ← keyValue (value (depthLimit - 1)) s
  let rest ← endOfLine rest
  let root ← state.root.changeAt (·.add path item) state.header
  return ({ state with root }, rest)

/-- Every line takes a character, so fuel for one more than the characters is enough. -/
def lines (state : State) : Nat → List Char → Option Entries
  | 0, _ => none
  | fuel + 1, s =>
    match skipBlanks s with
    | [] => some state.root
    | c :: rest =>
      let next :=
        if c = '#' ∨ c = '\n' ∨ c = '\r' then (endOfLine (c :: rest)).map (state, ·)
        else if c = '[' then header state (c :: rest)
        else keyValueLine state (c :: rest)
      match next with
      | none => none
      | some (state, rest) => lines state fuel rest

/-- A byte order mark may come first. -/
def parse (text : String) : Option Entries :=
  let s := match text.toList with
    | '\ufeff' :: rest => rest
    | s => s
  lines {} (s.length + 1) s

end ObjectBridge.Toml
