import ObjectBridge.ClassDecl
import ObjectBridge.Coercion

/-! Members of a type as they are bound: methods and properties with their coercions,
constants and signals, each with the class that declares it. -/
namespace ObjectBridge

structure MethodBinding where
  owner : String
  decl : MethodDecl
  params : List Coercion
  returns : Coercion
  deriving DecidableEq

/-- Class and method, as messages name it. -/
def MethodBinding.qualified (m : MethodBinding) : String := m.owner ++ "." ++ m.decl.name

structure PropertyBinding where
  owner : String
  decl : PropertyDecl
  coercion : Coercion
  deriving DecidableEq

inductive Member where
  | method (binding : MethodBinding)
  | property (binding : PropertyBinding)
  | constant (owner name : String) (value : Int64)
  | signal (owner name : String)
  deriving DecidableEq

namespace Member

def owner : Member → String
  | .method m => m.owner
  | .property p => p.owner
  | .constant owner _ _ => owner
  | .signal owner _ => owner

def kindName : Member → String
  | .method _ => "method"
  | .property _ => "property"
  | .constant .. => "constant"
  | .signal .. => "signal"

end Member

/-- Members by name. -/
abbrev MemberTable := NameMap Member

/-- The entries of the second table over those of the first. -/
def MemberTable.overlay (below above : MemberTable) : MemberTable := below ∪ above

end ObjectBridge
