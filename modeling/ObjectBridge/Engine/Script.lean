import ObjectBridge.NameMap
import ObjectBridge.Variant.Convert

/-! Scripts: the bodies of native methods, as expressions over the engine, the receiver and the
arguments of a call. -/
namespace ObjectBridge

/-- The body of a method. A script has the operations of an engine that act on objects. A body that
uses others, be it to define a class or to publish an object, comes to direct steps as well, and
what holds for every history of direct steps holds for it. -/
inductive Script where
  | const (value : Variant)
  | arg (index : Nat) (wanted : Wanted)
  | argCount
  | receiver
  /-- The receiver's handle as an int. -/
  | receiverId
  | field (name : String) (on : Script)
  | className (on : Script)
  | setField (name : String) (value on : Script)
  /-- Add to an int field of the receiver, wrapping around; what is no int counts as zero. -/
  | increment (name : String) (amount : Int64)
  | truthy (value : Script)
  | create (cls : String)
  | destroy (on : Script)
  | call (method : String) (args : List Script) (on : Script)
  | fail (reason : String)
  | sequence (steps : List Script)
  deriving Inhabited

/-- Methods by class and name, each declared on the class itself. -/
abbrev MethodTable := NameMap (NameMap Script)

namespace MethodTable

/-- A method registered again is replaced. -/
def register (r : MethodTable) (cls method : String) (body : Script) : MethodTable :=
  r.insert cls ((r.getD cls ∅).insert method body)

def get? (r : MethodTable) (cls method : String) : Option Script :=
  (r[cls]? : Option (NameMap Script)).bind fun methods => methods[method]?

def contains (r : MethodTable) (cls method : String) : Bool := (r.get? cls method).isSome

/-- The number of methods of all classes. -/
def count (r : MethodTable) : Nat := r.values.foldr (fun methods n => methods.size + n) 0

def debugText (r : MethodTable) : String :=
  s!"MethodRegistry \x7b classes: {r.size}, count: {r.count} \x7d"

end MethodTable
end ObjectBridge
