import ObjectBridge.Channel

/-! Reading a variant as a value of one kind, as native methods do with their arguments.
An int is accepted where a float is wanted; nothing else converts. -/
namespace ObjectBridge

inductive Kind where
  | bool
  | int
  | float
  | string
  | object
  deriving DecidableEq

def Kind.text : Kind → String
  | .bool => "bool"
  | .int => "int"
  | .float => "float"
  | .string => "String"
  | .object => "Object"

/-- What is wanted of an argument: anything, a value of one kind, or such a value or nil. -/
inductive Wanted where
  | anything
  | required (kind : Kind)
  | optional (kind : Kind)
  deriving DecidableEq

namespace Variant

/-- The value that a reader of the kind gets, as a variant again. -/
def ofKind? : Kind → Variant → Option Variant
  | .bool, .bool b => some (.bool b)
  | .int, .int i => some (.int i)
  | .float, .float x => some (.float x)
  | .float, .int i => some (.float i.toFloat)
  | .string, .string s => some (.string s)
  | .object, .object h => some (.object h)
  | _, _ => none

def asKind (kind : Kind) (v : Variant) : Except ChannelError Variant :=
  match v.ofKind? kind with
  | some converted => .ok converted
  | none => .error (.typeMismatch kind.text v.kindName)

def convert : Wanted → Variant → Except ChannelError Variant
  | .anything, v => .ok v
  | .required kind, v => v.asKind kind
  | .optional _, .nil => .ok .nil
  | .optional kind, v => v.asKind kind

/-- Positional argument `index`. -/
def argument (args : List Variant) (index : Nat) : Except ChannelError Variant :=
  match args[index]? with
  | some v => .ok v
  | none => .error (.typeMismatch s!"argument {index}" s!"{args.length} argument(s)")

end Variant
end ObjectBridge
