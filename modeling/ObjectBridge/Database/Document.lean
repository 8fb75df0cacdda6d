import ObjectBridge.Database

/-! Class database documents: the records in which class databases are stored, where tags are
still spelled out, and the database that a document describes. -/
namespace ObjectBridge

structure MethodRecord where
  name : String
  args : List String := []
  returns : String := "nil"
  deriving DecidableEq

structure PropertyRecord where
  name : String
  tag : String
  getter : String
  setter : Option String := none
  deriving DecidableEq

structure ClassRecord where
  name : String
  parent : Option String := none
  methods : List MethodRecord := []
  properties : List PropertyRecord := []
  constants : NameMap Int64 := ∅
  signals : List String := []
  singleton : Bool := false
  singletonName : Option String := none
  instantiable : Bool := true
  deriving DecidableEq

structure Document where
  version : Nat
  classes : List ClassRecord := []
  constants : NameMap Int64 := ∅
  deriving DecidableEq

/-- A tag as it is spelled in a document. -/
def parseTag (context spelling : String) : Except LoadError Tag :=
  match Tag.parse? spelling with
  | some tag => .ok tag
  | none => .error (.unknownTag spelling context)

namespace ClassRecord

def context (r : ClassRecord) (member : String) : String := r.name ++ "." ++ member

def method (r : ClassRecord) (m : MethodRecord) : Except LoadError MethodDecl := do
  let params ← m.args.mapM (parseTag (r.context m.name))
  return ⟨m.name, params, ← parseTag (r.context m.name) m.returns⟩

def property (r : ClassRecord) (p : PropertyRecord) : Except LoadError PropertyDecl := do
  return ⟨p.name, ← parseTag (r.context p.name) p.tag, p.getter, p.setter⟩

/-- Methods are read before properties; the last property of a name stays. -/
def decl (r : ClassRecord) : Except LoadError ClassDecl := do
  let methods ← r.methods.mapM r.method
  let properties ← r.properties.mapM r.property
  return {
    name := r.name
    parent := r.parent
    methods
    properties := NameMap.ofPairs (properties.map fun p => (p.name, p))
    constants := r.constants
    signals := r.signals
    singleton := r.singleton
    singletonName := r.singletonName
    instantiable := r.instantiable }

end ClassRecord

/-! The document of given classes -/

/-- Tags are spelled by their texts. -/
def MethodDecl.record (m : MethodDecl) : MethodRecord :=
  ⟨m.name, m.params.map (·.text), m.returns.text⟩

def PropertyDecl.record (p : PropertyDecl) : PropertyRecord :=
  ⟨p.name, p.tag.text, p.getter, p.setter⟩

def ClassDecl.record (c : ClassDecl) : ClassRecord where
  name := c.name
  parent := c.parent
  methods := c.methods.map (·.record)
  properties := c.properties.values.map (·.record)
  constants := c.constants
  signals := c.signals
  singleton := c.singleton
  singletonName := c.singletonName
  instantiable := c.instantiable

def Document.ofClasses (classes : List ClassDecl) (constants : NameMap Int64) : Document where
  version := formatVersion
  classes := classes.map (·.record)
  constants := constants

namespace Database

/-- The version is looked at first, then the spelling of all tags, then the classes. -/
def ofDocument (doc : Document) : Except LoadError Database :=
  if doc.version ≠ formatVersion then .error (.unsupportedVersion doc.version)
  else do
    let classes ← doc.classes.mapM (·.decl)
    ofClasses classes doc.constants

end Database
end ObjectBridge
