import ObjectBridge.NameMap
import ObjectBridge.Tag

/-! Coercions: how a value crosses between engine and wrappers, decided once from its tag. -/
namespace ObjectBridge

/-- The place of a class among all classes, parents before children. It is below the number of the
classes, so that ids fit 32 bits while there are fewer than 2^32 classes; ids do not wrap around. -/
abbrev ClassId := Nat

inductive Coercion where
  /-- There is no value. -/
  | discard
  | bool
  | int
  | float
  | string
  /-- An object, of the given class or one below it if there is one. -/
  | object (cls : Option ClassId)
  /-- Any value as it is. -/
  | any
  deriving DecidableEq

/-- A tag that names a class has a coercion only if the class has an id. -/
def Coercion.ofTag? (ids : NameMap ClassId) : Tag → Option Coercion
  | .nil => some .discard
  | .bool => some .bool
  | .int => some .int
  | .float => some .float
  | .string => some .string
  | .object none => some (.object none)
  | .object (some cls) => ids[cls]?.map fun id => .object (some id)
  | .variant => some .any

end ObjectBridge
