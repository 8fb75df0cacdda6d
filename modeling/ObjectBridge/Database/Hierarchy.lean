import ObjectBridge.ClassDecl
import ObjectBridge.Database.Error

/-! The parent relation of a list of classes: walks from a class towards its root, and the
search for cycles and for further roots. -/
namespace ObjectBridge

/-- Apply `next` again and again, up to a first value to stop at, which is left out. The fuel
bounds the number of values. -/
def climb (next : α → Option α) (stop : α → Bool) : Nat → α → List α
  | 0, _ => []
  | fuel + 1, x =>
    if stop x then []
    else x :: match next x with
      | none => []
      | some y => climb next stop fuel y

/-- Classes by name. -/
abbrev ClassIndex := NameMap ClassDecl

namespace ClassIndex

def ofClasses (classes : List ClassDecl) : ClassIndex :=
  classes.foldl (fun index c => index.insert c.name c) ∅

def parent? (index : ClassIndex) (c : ClassDecl) : Option ClassDecl :=
  c.parent.bind fun name => index[name]?

/-- A class and all above it, the root last. Without a cycle no walk is longer than the number
of classes. -/
def lineage (index : ClassIndex) (c : ClassDecl) : List ClassDecl :=
  climb index.parent? (fun _ => false) index.size c

/-- The method that a name means on a class: the nearest one. -/
def findMethod? (index : ClassIndex) (c : ClassDecl) (name : String) : Option MethodDecl :=
  (index.lineage c).findSome? (·.method? name)

/-- Is the class of that name, or one above it, called `sup`? -/
def isBelow (index : ClassIndex) (sub sup : String) : Bool :=
  match index[sub]? with
  | none => false
  | some c => (index.lineage c).any (·.name == sup)

/-- Is a value declared as the first tag welcome where the second is declared? -/
def assignable (index : ClassIndex) (value target : Tag) : Bool :=
  if value = target then true
  else match value, target with
    | _, .variant => true
    | .int, .float => true
    | .object _, .object none => true
    | .object (some sub), .object (some sup) => index.isBelow sub sup
    | _, _ => false

end ClassIndex

namespace Hierarchy

/-- Every parent is declared; the first class whose parent is not is the one reported. -/
def checkParents (index : ClassIndex) : List ClassDecl → Except LoadError Unit
  | [] => .ok ()
  | c :: rest =>
    match c.parent with
    | none => checkParents index rest
    | some parent =>
      if parent ∈ index then checkParents index rest
      else .error (.unresolvedParent c.name parent)

/-- The closed walk that a path, newest class first, makes when it comes back to a class. -/
def closedWalk (path : List ClassDecl) (c : ClassDecl) : List String :=
  (path.reverse.map (·.name)).dropWhile (· != c.name) ++ [c.name]

/-- Extend a path, newest class first, until it meets a settled class or ends above a root. -/
def walk (index : ClassIndex) (settled : List String) :
    Nat → List ClassDecl → Option ClassDecl → Except LoadError (List ClassDecl)
  | 0, path, _ => .ok path
  | _ + 1, path, none => .ok path
  | fuel + 1, path, some c =>
    if c.name ∈ settled then .ok path
    else if path.any (·.name == c.name) then .error (.cycle (closedWalk path c))
    else walk index settled fuel (c :: path) (index.parent? c)

/-- Walk up from every class in turn. What was walked without meeting a cycle is settled and
is not walked again. A walk meets at most every class and then one of them again. -/
def checkCycles (index : ClassIndex) : List String → List ClassDecl → Except LoadError Unit
  | _, [] => .ok ()
  | settled, c :: rest =>
    match walk index settled (index.size + 1) [] (some c) with
    | .error e => .error e
    | .ok path => checkCycles index (path.map (·.name) ++ settled) rest

def rootNames (classes : List ClassDecl) : List String :=
  (classes.filter (·.isRoot)).map (·.name)

def checkRoots (classes : List ClassDecl) : Except LoadError Unit :=
  let roots := rootNames classes
  if 1 < roots.length then .error (.severalRoots roots) else .ok ()

/-- No cycle and at most one root. -/
def check (index : ClassIndex) (classes : List ClassDecl) : Except LoadError Unit :=
  match checkCycles index [] classes with
  | .error e => .error e
  | .ok () => checkRoots classes

/-- Put a class and those above it that are still missing in front of what is placed. -/
def place (index : ClassIndex) (placed : List ClassDecl) (c : ClassDecl) : List ClassDecl :=
  climb index.parent? (fun a => placed.any (·.name == a.name)) index.size c ++ placed

/-- Parents strictly before children, otherwise in the order of declaration. -/
def order (index : ClassIndex) (classes : List ClassDecl) : List ClassDecl :=
  (classes.foldl (place index) []).reverse

end Hierarchy
end ObjectBridge
