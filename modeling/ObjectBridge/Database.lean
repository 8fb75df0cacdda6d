import ObjectBridge.Database.Members
import ObjectBridge.Database.Names

/-! Class databases: classes that passed every check, stored with parents before children, and
the integer constants that belong to no class. -/
namespace ObjectBridge

structure Database where
  /-- Parents strictly before children. -/
  classes : List ClassDecl
  constants : NameMap Int64
  index : ClassIndex := ClassIndex.ofClasses classes
  index_eq : index = ClassIndex.ofClasses classes := by rfl
  nonempty : classes ≠ []

namespace Database

/-- The checks run in a fixed order, so the error of a faulty list is determined: class names,
singleton names, parents, the shape of the parent relation, members. -/
def validate (classes : List ClassDecl) : Except LoadError ClassIndex := do
  let index ← Names.indexFrom ∅ classes
  Names.checkSingletons index classes
  Hierarchy.checkParents index classes
  Hierarchy.check index classes
  Members.check index classes
  return index

def ofClasses (classes : List ClassDecl) (constants : NameMap Int64) :
    Except LoadError Database :=
  if classes.isEmpty then .error .empty
  else match validate classes with
    | .error e => .error e
    | .ok index =>
      let ordered := Hierarchy.order index classes
      if nonempty : ordered ≠ [] then
        .ok { classes := ordered, constants, nonempty }
      else .error .empty

def get? (db : Database) (name : String) : Option ClassDecl := db.index[name]?

def contains (db : Database) (name : String) : Bool := db.index.contains name

def size (db : Database) : Nat := db.classes.length

/-- The one class without a parent comes first. -/
def root (db : Database) : ClassDecl := db.classes.head db.nonempty

def singletons (db : Database) : List ClassDecl := db.classes.filter (·.singleton)

/-- The class of that name and those above it, the root last; nothing for an unknown name. -/
def ancestors (db : Database) (name : String) : List ClassDecl :=
  match db.get? name with
  | none => []
  | some c => db.index.lineage c

end Database
end ObjectBridge
