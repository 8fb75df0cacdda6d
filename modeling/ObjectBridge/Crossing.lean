import ObjectBridge.BindError
import ObjectBridge.Value

/-! Values on their way to the engine and back. Arguments are checked strictly: an int widens to
a float and nil stands for no object, nothing else converts. Results are taken loosely. -/
namespace ObjectBridge

/-- Why a value does not cross. -/
inductive Mismatch where
  | kind (expected got : String)
  /-- An object of a class that is not below the one expected. -/
  | subtype (expected got : String)
  deriving DecidableEq

namespace Mismatch

def message : Mismatch → String
  | kind expected got => s!"expected {expected}, got {got}"
  | subtype expected got => s!"expected {expected}, got an instance of {got}"

/-- The error of an argument of a method. -/
def argument (m : Mismatch) (method : String) (index : Nat) : BindError :=
  .argumentType method (some index) s!"argument {index}: {m.message}"

/-- The error of the result of a method. -/
def result (m : Mismatch) (method : String) : BindError :=
  match m with
  | kind expected got => .nativeCall method (.typeMismatch expected got)
  | subtype expected got => .nativeCall method (.typeMismatch expected got)

end Mismatch

namespace Crossing

/-- The name of a class in messages. -/
def label (lattice : Lattice) (cls : Option ClassId) : String :=
  match cls.bind lattice.byId? with
  | some t => t.name
  | none => "Object"

/-- What a coercion expects, in messages. -/
def expected (lattice : Lattice) : Coercion → String
  | .discard => "nil"
  | .bool => "bool"
  | .int => "int"
  | .float => "float"
  | .string => "String"
  | .object cls => label lattice cls
  | .any => "Variant"

/-- Is an object welcome where a class is wanted? Without strictness every object is. -/
def accepts (strict : Bool) (cls : Option ClassId) (w : Wrapper) : Bool :=
  match cls with
  | none => true
  | some id => !strict || w.type.isSubtypeOf id

/-- The raw value for an argument or a property. -/
def toVariant (lattice : Lattice) (strict : Bool) (coercion : Coercion) (value : Value) :
    Except Mismatch Variant :=
  match coercion, value with
  | .any, v => .ok v.toRaw
  | .discard, .nil => .ok .nil
  | .bool, .bool b => .ok (.bool b)
  | .int, .int i => .ok (.int i)
  | .float, .float x => .ok (.float x)
  | .float, .int i => .ok (.float i.toFloat)
  | .string, .string s => .ok (.string s)
  | .object _, .nil => .ok .nil
  | .object cls, .object w =>
    if accepts strict cls w then .ok (.object w.handle)
    else .error (.subtype (label lattice cls) w.className)
  | c, v => .error (.kind (expected lattice c) v.kindName)

/-- A raw result: a value, or an object still to be wrapped. -/
inductive Received where
  | value (v : Value)
  | object (h : Handle)
  deriving DecidableEq

/-- Bools are truthiness, numbers take any numeric encoding and nil is the empty value of every
kind. A float becomes an int by dropping its fraction, within the range of ints. -/
def receive (coercion : Coercion) (raw : Variant) : Except Mismatch Received :=
  match coercion, raw with
  | .discard, _ => .ok (.value .nil)
  | .bool, raw => .ok (.value (.bool raw.truthy))
  | .int, .int i => .ok (.value (.int i))
  | .int, .bool b => .ok (.value (.int (if b then 1 else 0)))
  | .int, .float x => .ok (.value (.int x.toInt64))
  | .int, .nil => .ok (.value (.int 0))
  | .int, other => .error (.kind "int" other.kindName)
  | .float, .float x => .ok (.value (.float x))
  | .float, .int i => .ok (.value (.float i.toFloat))
  | .float, .bool b => .ok (.value (.float (if b then 1.0 else 0.0)))
  | .float, .nil => .ok (.value (.float 0.0))
  | .float, other => .error (.kind "float" other.kindName)
  | .string, .string s => .ok (.value (.string s))
  | .string, .nil => .ok (.value (.string ""))
  | .string, other => .error (.kind "String" other.kindName)
  | .object _, .object h => .ok (.object h)
  | .object _, .nil => .ok (.value .nil)
  | .object _, other => .error (.kind "Object" other.kindName)
  | .any, .object h => .ok (.object h)
  | .any, .nil => .ok (.value .nil)
  | .any, .bool b => .ok (.value (.bool b))
  | .any, .int i => .ok (.value (.int i))
  | .any, .float x => .ok (.value (.float x))
  | .any, .string s => .ok (.value (.string s))

/-- Arguments from position `index` on against as many coercions. -/
def argsFrom (lattice : Lattice) (strict : Bool) (method : String) (index : Nat) :
    List Value → List Coercion → Except BindError (List Variant)
  | v :: vs, c :: cs =>
    match toVariant lattice strict c v with
    | .error m => .error (m.argument method index)
    | .ok raw =>
      match argsFrom lattice strict method (index + 1) vs cs with
      | .error e => .error e
      | .ok raws => .ok (raw :: raws)
  | _, _ => .ok []

/-- Positional arguments of a method against its parameters. -/
def args (lattice : Lattice) (strict : Bool) (method : String) (values : List Value)
    (params : List Coercion) : Except BindError (List Variant) :=
  if values.length ≠ params.length then
    .error (.argumentType method none
      s!"expected {params.length} argument(s), got {values.length}")
  else argsFrom lattice strict method 0 values params

end Crossing
end ObjectBridge
