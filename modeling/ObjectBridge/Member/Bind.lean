import ObjectBridge.Database.Error
import ObjectBridge.Member
import ObjectBridge.Options

/-! Binding the members that a class itself declares. Methods, properties, signals and constants
are bound in this order; of two members of one name the later one stays. -/
namespace ObjectBridge.Bind

/-- The coercion of a tag in the declaration of `context`. -/
def coercion (ids : NameMap ClassId) (context : String) (tag : Tag) :
    Except LoadError Coercion :=
  match Coercion.ofTag? ids tag with
  | some c => .ok c
  | none => .error (.unknownTag tag.text context)

/-- Is a method bound under these options? -/
def isVisible (options : Options) (m : MethodDecl) : Bool :=
  !m.isPrivate || options.exposePrivateMethods

def method (ids : NameMap ClassId) (c : ClassDecl) (m : MethodDecl) :
    Except LoadError MethodBinding := do
  let params ← m.params.mapM (coercion ids (c.context m.name))
  let returns ← coercion ids (c.context m.name) m.returns
  return ⟨c.name, m, params, returns⟩

def property (ids : NameMap ClassId) (c : ClassDecl) (p : PropertyDecl) :
    Except LoadError PropertyBinding := do
  return ⟨c.name, p, ← coercion ids (c.context p.name) p.tag⟩

/-- The members of a class by name, in the order in which they are bound. -/
def members (ids : NameMap ClassId) (options : Options) (c : ClassDecl) :
    Except LoadError (List (String × Member)) := do
  let methods ← (c.methods.filter (isVisible options)).mapM (method ids c)
  let properties ← c.properties.values.mapM (property ids c)
  return methods.map (fun m => (m.decl.name, .method m)) ++
    properties.map (fun p => (p.decl.name, .property p)) ++
    c.signals.map (fun name => (name, .signal c.name name)) ++
    c.constants.toList.map (fun (name, value) => (name, .constant c.name name value))

def table (ids : NameMap ClassId) (options : Options) (c : ClassDecl) :
    Except LoadError MemberTable := do
  return NameMap.ofPairs (← members ids options c)

end ObjectBridge.Bind
