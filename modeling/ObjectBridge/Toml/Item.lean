import ObjectBridge.Toml.Scalar

/-! TOML documents: items under keys, and the rules by which the lines of a text may extend the
tables that earlier lines made. -/
namespace ObjectBridge.Toml

/-- How a table came to be. -/
inductive Form where
  /-- By its own header, or as the whole document. -/
  | header
  /-- By a header further down. -/
  | implied
  /-- By a dotted key. -/
  | dotted
  /-- Between braces, which closes it. -/
  | inline
  deriving DecidableEq

inductive Item where
  | string (s : String)
  | bool (b : Bool)
  /-- A number, a date or a time, of which nothing is kept. -/
  | scalar
  | array (items : List Item)
  | table (form : Form) (entries : List (String × Item))
  /-- Tables under one key, each by a header of its own. -/
  | tables (tables : List (List (String × Item)))

abbrev Entries := List (String × Item)

namespace Entries

def get? (entries : Entries) (key : String) : Option Item :=
  (entries.find? (·.1 == key)).map (·.2)

def replace (entries : Entries) (key : String) (item : Item) : Entries :=
  entries.map fun entry => if entry.1 == key then (key, item) else entry

/-- Change the last of several tables. -/
def changeLast (change : Entries → Option Entries) : List Entries → Option (List Entries)
  | [] => none
  | [last] => (change last).map fun t => [t]
  | t :: rest => (changeLast change rest).map (t :: ·)

/-- Change the table that a header's path leads to. Missing tables on the way are implied. -/
def changeAt (entries : Entries) (change : Entries → Option Entries) :
    List String → Option Entries
  | [] => change entries
  | key :: path =>
    match entries.get? key with
    | none => (changeAt [] change path).map fun t => entries ++ [(key, .table .implied t)]
    | some (.table form t) =>
      if form = .inline then none
      else (changeAt t change path).map fun t => entries.replace key (.table form t)
    | some (.tables ts) =>
      (changeLast (fun t => changeAt t change path) ts).map fun ts =>
        entries.replace key (.tables ts)
    | some _ => none

/-- May a dotted key go through a table of this form, and may it end there? -/
def passable (form : Form) (isLast : Bool) : Bool :=
  match form with
  | .dotted => true
  | .implied => !isLast
  | _ => false

/-- Put an item under a key in the table that a dotted path leads to. -/
def addAt (entries : Entries) (key : String) (item : Item) : List String → Option Entries
  | [] =>
    match entries.get? key with
    | none => some (entries ++ [(key, item)])
    | some _ => none
  | step :: path =>
    match entries.get? step with
    | none => (addAt [] key item path).map fun t => entries ++ [(step, .table .dotted t)]
    | some (.table form t) =>
      if passable form path.isEmpty then
        (addAt t key item path).map fun t => entries.replace step (.table form t)
      else none
    | some (.tables ts) =>
      if path.isEmpty then none
      else (changeLast (fun t => addAt t key item path) ts).map fun ts =>
        entries.replace step (.tables ts)
    | some _ => none

/-- A key and value as written: all parts of the key but the last lead to the table. -/
def add (entries : Entries) (path : List String) (item : Item) : Option Entries :=
  match path.getLast? with
  | some key => entries.addAt key item path.dropLast
  | none => none

/-- A header makes a new table, or a table of its own out of an implied one. -/
def openTable (entries : Entries) (path : List String) : Option Entries :=
  match path.getLast? with
  | none => none
  | some key =>
    entries.changeAt (fun parent =>
      match parent.get? key with
      | none => some (parent ++ [(key, .table .header [])])
      | some (.table .implied t) => some (parent.replace key (.table .header t))
      | some _ => none) path.dropLast

/-- A double header adds a table to those under its key. -/
def openElement (entries : Entries) (path : List String) : Option Entries :=
  match path.getLast? with
  | none => none
  | some key =>
    entries.changeAt (fun parent =>
      match parent.get? key with
      | none => some (parent ++ [(key, .tables [[]])])
      | some (.tables ts) => some (parent.replace key (.tables (ts ++ [[]])))
      | some _ => none) path.dropLast

end Entries
end ObjectBridge.Toml
