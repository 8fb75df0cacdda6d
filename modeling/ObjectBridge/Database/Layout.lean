import ObjectBridge.Database.Document
import ObjectBridge.Json.Content

/-! The layout of documents as JSON texts. A record is an object, whose unknown members are
skipped, or an array of its fields in order, where the last ones may be missing if they have a
default. -/
namespace ObjectBridge

namespace Layout

open Json (Node)

abbrev Decoded (α : Type) := Except DocumentFault α

def string : Node → Decoded String
  | .string raw =>
    match Json.stringContent raw with
    | some s => .ok s
    | none => .error .malformed
  | _ => .error (.unexpected "a string")

def bool : Node → Decoded Bool
  | .bool b => .ok b
  | _ => .error (.unexpected "a boolean")

def integer (low high : Int) : Node → Decoded Int
  | .number literal =>
    match Json.integerContent literal with
    | some n => if low ≤ n ∧ n ≤ high then .ok n else .error (.unexpected "a smaller integer")
    | none => .error (.unexpected "an integer")
  | _ => .error (.unexpected "an integer")

def int64 (node : Node) : Decoded Int64 := do
  return Int64.ofInt (← integer Int64.minValue.toInt Int64.maxValue.toInt node)

/-- Versions are unsigned numbers of 32 bits. -/
def versionNumber (node : Node) : Decoded Nat := do
  return (← integer 0 (UInt32.size - 1 : Nat) node).toNat

/-- Only here does null stand for a missing value. -/
def nullable (decode : Node → Decoded α) : Node → Decoded (Option α)
  | .null => .ok none
  | node => (decode node).map some

def list (decode : Node → Decoded α) : Node → Decoded (List α)
  | .array items => items.mapM decode
  | _ => .error (.unexpected "an array")

/-- The last member of a key stays. -/
def map (decode : Node → Decoded α) : Node → Decoded (NameMap α)
  | .object members =>
    members.foldlM (fun map (key, node) => do
      let name ← string (.string key)
      return map.insert name (← decode node)) ∅
  | _ => .error (.unexpected "an object")

/-- A field of a record by name and place. -/
structure Fields where
  named : NameMap Node

namespace Fields

def addMember (names : List String) (fields : NameMap Node) (member : List UInt8 × Node) :
    Decoded (NameMap Node) := do
  let name ← string (.string member.1)
  if name ∈ names then
    if name ∈ fields then .error (.unexpected s!"one field '{name}'")
    else return fields.insert name member.2
  else return fields

/-- The fields of a record that has the given names in this order. -/
def ofNode (names : List String) : Node → Decoded Fields
  | .object members => do return ⟨← members.foldlM (addMember names) ∅⟩
  | .array items =>
    if names.length < items.length then .error (.unexpected s!"{names.length} fields")
    else .ok ⟨NameMap.ofPairs (names.zip items)⟩
  | _ => .error (.unexpected "a record")

def required (fields : Fields) (name : String) (decode : Node → Decoded α) : Decoded α :=
  match fields.named[name]? with
  | some node => decode node
  | none => .error (.unexpected s!"field '{name}'")

def withDefault (fields : Fields) (name : String) (decode : Node → Decoded α) (value : α) :
    Decoded α :=
  match fields.named[name]? with
  | some node => decode node
  | none => .ok value

end Fields

def method (node : Node) : Decoded MethodRecord := do
  let fields ← Fields.ofNode ["name", "args", "returns"] node
  return {
    name := ← fields.required "name" string
    args := ← fields.withDefault "args" (list string) []
    returns := ← fields.withDefault "returns" string "nil" }

def property (node : Node) : Decoded PropertyRecord := do
  let fields ← Fields.ofNode ["name", "type", "getter", "setter"] node
  return {
    name := ← fields.required "name" string
    tag := ← fields.required "type" string
    getter := ← fields.required "getter" string
    setter := ← fields.withDefault "setter" (nullable string) none }

def signal (node : Node) : Decoded String := do
  let fields ← Fields.ofNode ["name"] node
  fields.required "name" string

def cls (node : Node) : Decoded ClassRecord := do
  let fields ← Fields.ofNode ["name", "parent", "methods", "properties", "constants", "signals",
    "singleton", "singleton_name", "instantiable"] node
  return {
    name := ← fields.required "name" string
    parent := ← fields.withDefault "parent" (nullable string) none
    methods := ← fields.withDefault "methods" (list method) []
    properties := ← fields.withDefault "properties" (list property) []
    constants := ← fields.withDefault "constants" (map int64) ∅
    signals := ← fields.withDefault "signals" (list signal) []
    singleton := ← fields.withDefault "singleton" bool false
    singletonName := ← fields.withDefault "singleton_name" (nullable string) none
    instantiable := ← fields.withDefault "instantiable" bool true }

def document (node : Node) : Decoded Document := do
  let fields ← Fields.ofNode ["version", "classes", "constants"] node
  return {
    version := ← fields.required "version" versionNumber
    classes := ← fields.withDefault "classes" (list cls) []
    constants := ← fields.withDefault "constants" (map int64) ∅ }

end Layout

namespace Database

def ofBytes (bytes : ByteArray) : Except LoadError Database :=
  match Json.parse bytes.toList with
  | none => .error (.malformed .malformed)
  | some node =>
    match Layout.document node with
    | .error fault => .error (.malformed fault)
    | .ok doc => ofDocument doc

def ofFile (files : FileReader) (path : String) : Except LoadError Database :=
  match files path with
  | .error reason => .error (.unreadable reason)
  | .ok bytes => ofBytes bytes

end Database
end ObjectBridge
