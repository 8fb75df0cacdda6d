import ObjectBridge.Disk

/-! Why a class database is refused. -/
namespace ObjectBridge

/-- The version of the document layout that can be read. -/
def formatVersion : Nat := 1

/-- Why bytes are no document of the layout. -/
inductive DocumentFault where
  /-- Not JSON at all. -/
  | malformed
  /-- A record has something other than what belongs there. -/
  | unexpected (wanted : String)
  deriving DecidableEq

def DocumentFault.message : DocumentFault → String
  | .malformed => "not a JSON text"
  | .unexpected wanted => s!"expected {wanted}"

inductive LoadError where
  | unreadable (reason : ReadError)
  | malformed (fault : DocumentFault)
  | unsupportedVersion (found : Nat)
  | empty
  | duplicateClass (cls : String)
  | unresolvedParent (cls parent : String)
  | unknownTag (spelling context : String)
  | nilValue (context : String)
  | duplicateMethod (cls method : String)
  | unresolvedAccessor (cls property accessor : String)
  | accessorSignature (cls property accessor reason : String)
  | duplicateSingleton (name first second : String)
  | singletonShadowsClass (cls name : String)
  /-- A closed walk along parents, its first class repeated at the end. -/
  | cycle (path : List String)
  | severalRoots (roots : List String)
  deriving DecidableEq

namespace LoadError

def message : LoadError → String
  | unreadable reason => s!"Failed to read class database: {reason.message}"
  | malformed fault => s!"Malformed class database: {fault.message}"
  | unsupportedVersion found =>
    s!"Unsupported class database version {found} (expected {formatVersion})"
  | empty => "Class database declares no classes"
  | duplicateClass cls => s!"Duplicate class '{cls}'"
  | unresolvedParent cls parent => s!"Class '{cls}' inherits from unknown class '{parent}'"
  | unknownTag spelling context => s!"Unknown type tag '{spelling}' in {context}"
  | nilValue context => s!"'nil' is not a valid value type in {context}"
  | duplicateMethod cls method => s!"Class '{cls}' declares method '{method}' twice"
  | unresolvedAccessor cls property accessor =>
    s!"Property '{cls}.{property}' uses unknown accessor '{accessor}'"
  | accessorSignature cls property accessor reason =>
    s!"Property '{cls}.{property}' cannot use '{accessor}': {reason}"
  | duplicateSingleton name first second =>
    s!"Singleton name '{name}' is used by both '{first}' and '{second}'"
  | singletonShadowsClass cls name =>
    s!"Singleton '{cls}' is bound as '{name}', which is another class"
  | cycle path => "Inheritance cycle: " ++ String.intercalate " -> " path
  | severalRoots roots => "Class database has several roots: " ++ String.intercalate ", " roots

/-- What the error was caused by in turn. -/
def causes : LoadError → List String
  | unreadable reason => [reason.message]
  | malformed fault => [fault.message]
  | _ => []

end LoadError

/-- The passes of validation, in the order in which they run. -/
inductive Check where
  | document
  | classNames
  | singletonNames
  | parents
  | cycles
  | roots
  | members
  deriving DecidableEq

/-- The pass that reports an error. Tags of a document are read before any class is compared
with another, yet they are member errors like those found later. -/
def LoadError.check : LoadError → Check
  | unreadable _ | malformed _ | unsupportedVersion _ => .document
  | empty | duplicateClass _ => .classNames
  | duplicateSingleton .. | singletonShadowsClass .. => .singletonNames
  | unresolvedParent .. => .parents
  | cycle _ => .cycles
  | severalRoots _ => .roots
  | unknownTag .. | nilValue _ | duplicateMethod .. | unresolvedAccessor .. |
    accessorSignature .. => .members

end ObjectBridge
