import ObjectBridge.NameMap
import ObjectBridge.Tag

/-! Class declarations: what an engine says about one native class. -/
namespace ObjectBridge

structure MethodDecl where
  name : String
  params : List Tag := []
  returns : Tag := .nil
  deriving DecidableEq

/-- An engine marks its private methods by a leading underscore. -/
def MethodDecl.isPrivate (m : MethodDecl) : Bool := m.name.toList.head? == some '_'

structure PropertyDecl where
  name : String
  tag : Tag
  getter : String
  /-- Absent for a property that cannot be written. -/
  setter : Option String := none
  deriving DecidableEq

def PropertyDecl.isReadOnly (p : PropertyDecl) : Bool := p.setter.isNone

structure ClassDecl where
  name : String
  /-- Absent for a root. -/
  parent : Option String := none
  methods : List MethodDecl := []
  properties : NameMap PropertyDecl := ∅
  constants : NameMap Int64 := ∅
  signals : List String := []
  /-- The engine has exactly one instance. -/
  singleton : Bool := false
  /-- The name under which the instance is published, if not that of the class. -/
  singletonName : Option String := none
  /-- Instances may be created from outside the engine. -/
  instantiable : Bool := true
  deriving DecidableEq

namespace ClassDecl

def isRoot (c : ClassDecl) : Bool := c.parent.isNone

def bindingName (c : ClassDecl) : String := c.singletonName.getD c.name

/-- The first method of that name that the class itself declares. -/
def method? (c : ClassDecl) (name : String) : Option MethodDecl :=
  c.methods.find? (·.name == name)

def memberCount (c : ClassDecl) : Nat :=
  c.methods.length + c.properties.size + c.constants.size + c.signals.length

/-- How a member of the class is referred to in messages. -/
def context (c : ClassDecl) (member : String) : String := c.name ++ "." ++ member

def inherits (c : ClassDecl) (parent : String) : ClassDecl := { c with parent := some parent }

def withMethod (c : ClassDecl) (m : MethodDecl) : ClassDecl :=
  { c with methods := c.methods ++ [m] }

/-- A property is kept under its own name; the last one of a name stays. -/
def withProperty (c : ClassDecl) (p : PropertyDecl) : ClassDecl :=
  { c with properties := c.properties.insert p.name p }

def withConstant (c : ClassDecl) (name : String) (value : Int64) : ClassDecl :=
  { c with constants := c.constants.insert name value }

def withSignal (c : ClassDecl) (name : String) : ClassDecl :=
  { c with signals := c.signals ++ [name] }

def asSingleton (c : ClassDecl) (bindingName : Option String) : ClassDecl :=
  { c with singleton := true, singletonName := bindingName }

def notInstantiable (c : ClassDecl) : ClassDecl := { c with instantiable := false }

end ClassDecl
end ObjectBridge
