import ObjectBridge.Database
import ObjectBridge.Member.Bind
import ObjectBridge.Text.Quoted

/-! The types of a class database: one for each class, with the chain of its ancestors and the
table of all members visible on it. -/
namespace ObjectBridge

structure TypeInfo where
  id : ClassId
  decl : ClassDecl
  parent : Option ClassId
  /-- The type itself first, the root last. -/
  chain : List ClassId
  own : MemberTable
  /-- Inherited members included. -/
  members : MemberTable
  deriving DecidableEq

namespace TypeInfo

def name (t : TypeInfo) : String := t.decl.name

/-- Is the type the other one or below it? -/
def isSubtypeOf (t : TypeInfo) (other : ClassId) : Bool := t.chain.contains other

def member? (t : TypeInfo) (name : String) : Option Member := t.members[name]?

def debugText (t : TypeInfo) : String :=
  let parent := match t.parent with
    | none => "None"
    | some id => s!"Some(ClassId({id}))"
  s!"SynthesizedType \x7b id: ClassId({t.id}), name: {Text.quoted t.name}, parent: {parent}, " ++
  s!"members: {t.members.size} \x7d"

end TypeInfo

structure Lattice where
  /-- Parents before children; a type stands at the place of its id. -/
  types : Array TypeInfo
  ids : NameMap ClassId
  nonempty : 0 < types.size

namespace Lattice

/-- Ids are given in the order of the classes. -/
def assignIds (classes : List ClassDecl) : NameMap ClassId :=
  NameMap.ofPairs (classes.zipIdx.map fun (c, id) => (c.name, id))

/-- The type of the parent, which must have been made before. -/
def parentType (ids : NameMap ClassId) (types : Array TypeInfo) (c : ClassDecl) :
    Except LoadError (Option TypeInfo) :=
  match c.parent with
  | none => .ok none
  | some parent =>
    match ids[parent]?.bind fun id => types[id]? with
    | none => .error (.unresolvedParent c.name parent)
    | some t => .ok (some t)

/-- The type of the next class. Its table is that of its parent with its own members over it. -/
def typeOf (ids : NameMap ClassId) (options : Options) (types : Array TypeInfo)
    (c : ClassDecl) : Except LoadError TypeInfo := do
  let parent ← parentType ids types c
  let own ← Bind.table ids options c
  let id := types.size
  return match parent with
    | none => { id, decl := c, parent := none, chain := [id], own, members := own }
    | some p =>
      { id, decl := c, parent := some p.id, chain := id :: p.chain, own
        members := p.members.overlay own }

def addType (ids : NameMap ClassId) (options : Options) (types : Array TypeInfo)
    (c : ClassDecl) : Except LoadError (Array TypeInfo) := do
  return types.push (← typeOf ids options types c)

def ofDatabase (db : Database) (options : Options) : Except LoadError Lattice := do
  let ids := assignIds db.classes
  let types ← db.classes.foldlM (addType ids options) #[]
  if nonempty : 0 < types.size then return { types, ids, nonempty } else throw .empty

def root (l : Lattice) : TypeInfo :=
  have := l.nonempty
  l.types[0]

def size (l : Lattice) : Nat := l.types.size

def byId? (l : Lattice) (id : ClassId) : Option TypeInfo := l.types[id]?

def get? (l : Lattice) (name : String) : Option TypeInfo := l.ids[name]?.bind l.byId?

def isSubtype (l : Lattice) (sub sup : ClassId) : Bool :=
  match l.byId? sub with
  | some t => t.isSubtypeOf sup
  | none => false

/-- Is the first class the second one or below it? No unknown class is. -/
def isSubclass (l : Lattice) (sub sup : String) : Bool :=
  match l.ids[sub]?, l.ids[sup]? with
  | some sub, some sup => l.isSubtype sub sup
  | _, _ => false

/-- The type itself first, the root last. -/
def hierarchy (l : Lattice) (id : ClassId) : List TypeInfo :=
  match l.byId? id with
  | some t => t.chain.filterMap l.byId?
  | none => []

end Lattice
end ObjectBridge
