import ObjectBridge.Database.Hierarchy

/-! The members of a class: methods of different names, value types that exist, and accessors
that fit the properties which name them. -/
namespace ObjectBridge.Members

/-- A class that a tag names must be declared. -/
def checkTag (index : ClassIndex) (context : String) (tag : Tag) : Except LoadError Unit :=
  match tag.cls? with
  | none => .ok ()
  | some cls => if cls ∈ index then .ok () else .error (.unknownTag cls context)

/-- A tag of a value, which nil is not. -/
def checkValueTag (index : ClassIndex) (context : String) (tag : Tag) : Except LoadError Unit :=
  if tag.isNil then .error (.nilValue context) else checkTag index context tag

def checkParams (index : ClassIndex) (context : String) : List Tag → Except LoadError Unit
  | [] => .ok ()
  | tag :: rest =>
    match checkValueTag index context tag with
    | .error e => .error e
    | .ok () => checkParams index context rest

def checkMethods (index : ClassIndex) (c : ClassDecl) :
    List String → List MethodDecl → Except LoadError Unit
  | _, [] => .ok ()
  | seen, m :: rest =>
    if m.name ∈ seen then .error (.duplicateMethod c.name m.name)
    else do
      checkParams index (c.context m.name) m.params
      checkTag index (c.context m.name) m.returns
      checkMethods index c (m.name :: seen) rest

/-- A getter takes nothing and returns something that the property may hold; what a variant
holds is seen only when it is read. -/
def getterFault? (index : ClassIndex) (p : PropertyDecl) (getter : MethodDecl) : Option String :=
  if getter.params ≠ [] then some s!"getter takes {getter.params.length} argument(s)"
  else if getter.returns = .variant ∨ index.assignable getter.returns p.tag then none
  else some s!"getter returns {getter.returns.text}, property is {p.tag.text}"

/-- A setter takes one value, and every value of the property will do. -/
def setterFault? (index : ClassIndex) (p : PropertyDecl) (setter : MethodDecl) : Option String :=
  match setter.params with
  | [param] =>
    if index.assignable p.tag param then none
    else some s!"setter takes {param.text}, property is {p.tag.text}"
  | params => some s!"setter takes {params.length} argument(s), expected 1"

/-- An accessor is the nearest method of its name, seen from the class of the property. -/
def checkAccessor (index : ClassIndex) (c : ClassDecl) (p : PropertyDecl) (accessor : String)
    (fault? : MethodDecl → Option String) : Except LoadError Unit :=
  match index.findMethod? c accessor with
  | none => .error (.unresolvedAccessor c.name p.name accessor)
  | some m =>
    match fault? m with
    | none => .ok ()
    | some reason => .error (.accessorSignature c.name p.name accessor reason)

def checkProperty (index : ClassIndex) (c : ClassDecl) (p : PropertyDecl) :
    Except LoadError Unit := do
  checkValueTag index (c.context p.name) p.tag
  checkAccessor index c p p.getter (getterFault? index p)
  match p.setter with
  | none => .ok ()
  | some setter => checkAccessor index c p setter (setterFault? index p)

def checkProperties (index : ClassIndex) (c : ClassDecl) :
    List PropertyDecl → Except LoadError Unit
  | [] => .ok ()
  | p :: rest => do
    checkProperty index c p
    checkProperties index c rest

/-- Methods in the order of declaration, then properties in the order of their names. -/
def checkClass (index : ClassIndex) (c : ClassDecl) : Except LoadError Unit := do
  checkMethods index c [] c.methods
  checkProperties index c c.properties.values

def check (index : ClassIndex) : List ClassDecl → Except LoadError Unit
  | [] => .ok ()
  | c :: rest => do
    checkClass index c
    check index rest

end ObjectBridge.Members
