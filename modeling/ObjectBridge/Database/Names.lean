import ObjectBridge.Database.Hierarchy

/-! The names that a class database publishes: one class each, and one binding for each
singleton that hides no other class. -/
namespace ObjectBridge.Names

/-- Add classes to an index, refusing the first name that is taken. -/
def indexFrom (index : ClassIndex) : List ClassDecl → Except LoadError ClassIndex
  | [] => .ok index
  | c :: rest =>
    if c.name ∈ index then .error (.duplicateClass c.name)
    else indexFrom (index.insert c.name c) rest

/-- Add the binding of a singleton to those of the singletons before it. -/
def bindSingleton (index : ClassIndex) (bound : NameMap String) (c : ClassDecl) :
    Except LoadError (NameMap String) :=
  let name := c.bindingName
  if name ≠ c.name ∧ name ∈ index then .error (.singletonShadowsClass c.name name)
  else match bound[name]? with
    | some first => .error (.duplicateSingleton name first c.name)
    | none => .ok (bound.insert name c.name)

def bindSingletons (index : ClassIndex) (bound : NameMap String) :
    List ClassDecl → Except LoadError Unit
  | [] => .ok ()
  | c :: rest =>
    match bindSingleton index bound c with
    | .error e => .error e
    | .ok bound => bindSingletons index bound rest

def checkSingletons (index : ClassIndex) (classes : List ClassDecl) : Except LoadError Unit :=
  bindSingletons index ∅ (classes.filter (·.singleton))

end ObjectBridge.Names
