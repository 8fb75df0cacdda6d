import ObjectBridge.Handle
import ObjectBridge.Text.Shortest

/-! Variants: the raw values that an engine takes and returns. Objects are bare handles. -/
namespace ObjectBridge

inductive Variant where
  | nil
  | bool (b : Bool)
  | int (i : Int64)
  | float (x : Float)
  | string (s : String)
  | object (h : Handle)
  deriving DecidableEq, Inhabited

namespace Variant

/-- Floats are equal as numbers: a NaN differs from itself and the two zeros are equal.
Values of different kinds differ. -/
def same : Variant → Variant → Bool
  | .nil, .nil => true
  | .bool a, .bool b => a == b
  | .int a, .int b => a == b
  | .float a, .float b => a == b
  | .string a, .string b => a == b
  | .object a, .object b => a == b
  | _, _ => false

def isNil : Variant → Bool
  | .nil => true
  | _ => false

def bool? : Variant → Option Bool
  | .bool b => some b
  | _ => none

def int? : Variant → Option Int64
  | .int i => some i
  | _ => none

def float? : Variant → Option Float
  | .float x => some x
  | _ => none

def string? : Variant → Option String
  | .string s => some s
  | _ => none

def object? : Variant → Option Handle
  | .object h => some h
  | _ => none

/-- False are nil, zero of either kind and the empty string; a NaN and every object are true. -/
def truthy : Variant → Bool
  | .nil => false
  | .bool b => b
  | .int i => i != 0
  | .float x => x != 0.0
  | .string s => s != ""
  | .object _ => true

def kindName : Variant → String
  | .nil => "nil"
  | .bool _ => "bool"
  | .int _ => "int"
  | .float _ => "float"
  | .string _ => "String"
  | .object _ => "Object"

/-- A string stands between quotes as it is, nothing in it is escaped. -/
def text : Variant → String
  | .nil => "nil"
  | .bool b => toString b
  | .int i => toString i.toInt
  | .float x => Text.floatText x
  | .string s => "\"" ++ s ++ "\""
  | .object h => "Object(" ++ h.text ++ ")"

end Variant
end ObjectBridge
