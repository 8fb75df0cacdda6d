import ObjectBridge.Handle
import ObjectBridge.Lattice
import ObjectBridge.Variant

/-! Values on the side of the embedding language. Objects are wrappers, never bare handles. -/
namespace ObjectBridge

/-- One allocation that stands for a native object. Copies share the allocation. -/
structure Wrapper where
  allocation : Nat
  handle : Handle
  type : TypeInfo
  deriving DecidableEq

namespace Wrapper

def className (w : Wrapper) : String := w.type.name

/-- Wrappers are equal when they stand for the same object. -/
def same (a b : Wrapper) : Bool := a.handle == b.handle

/-- Are both the same allocation? -/
def identical (a b : Wrapper) : Bool := a.allocation == b.allocation

def isInstanceOf (w : Wrapper) (t : TypeInfo) : Bool := w.type.isSubtypeOf t.id

def text (w : Wrapper) : String := s!"[{w.className}:{w.handle.text}]"

def debugText (w : Wrapper) : String := s!"Wrapper({w.className} {w.handle.debugText})"

end Wrapper

inductive Value where
  | nil
  | bool (b : Bool)
  | int (i : Int64)
  | float (x : Float)
  | string (s : String)
  | object (w : Wrapper)
  deriving DecidableEq

namespace Value

/-- Floats are equal as numbers, objects by their handles, and kinds never mix. -/
def same : Value → Value → Bool
  | .nil, .nil => true
  | .bool a, .bool b => a == b
  | .int a, .int b => a == b
  | .float a, .float b => a == b
  | .string a, .string b => a == b
  | .object a, .object b => a.same b
  | _, _ => false

/-- Is the value the object of a wrapper? -/
def isObject (v : Value) (w : Wrapper) : Bool :=
  match v with
  | .object o => o.same w
  | _ => false

def isNil : Value → Bool
  | .nil => true
  | _ => false

def bool? : Value → Option Bool
  | .bool b => some b
  | _ => none

def int? : Value → Option Int64
  | .int i => some i
  | _ => none

def float? : Value → Option Float
  | .float x => some x
  | _ => none

def string? : Value → Option String
  | .string s => some s
  | _ => none

def object? : Value → Option Wrapper
  | .object w => some w
  | _ => none

def kindName : Value → String
  | .nil => "nil"
  | .bool _ => "bool"
  | .int _ => "int"
  | .float _ => "float"
  | .string _ => "String"
  | .object _ => "Object"

/-- The variant of the same shape, with handles for objects. -/
def toRaw : Value → Variant
  | .nil => .nil
  | .bool b => .bool b
  | .int i => .int i
  | .float x => .float x
  | .string s => .string s
  | .object w => .object w.handle

def text : Value → String
  | .nil => "nil"
  | .bool b => toString b
  | .int i => toString i.toInt
  | .float x => Text.floatText x
  | .string s => Text.quoted s
  | .object w => w.text

end Value
end ObjectBridge
