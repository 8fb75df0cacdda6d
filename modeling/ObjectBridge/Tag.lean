/-! Type tags: the declared type of a parameter, a result or a property, and how tags are
spelled in a class database. -/
namespace ObjectBridge

inductive Tag where
  | nil
  | bool
  | int
  | float
  | string
  /-- An object, of the named class or one below it if a name is given. -/
  | object (cls : Option String)
  | variant
  deriving DecidableEq

namespace Tag

def isIdentifierStart (c : Char) : Bool := c.isAlpha || c == '_'

def isIdentifierRest (c : Char) : Bool := c.isAlphanum || c == '_'

/-- Identifiers are ASCII: a letter or underscore, then letters, digits and underscores. -/
def isIdentifier (s : String) : Bool :=
  match s.toList with
  | [] => false
  | c :: rest => isIdentifierStart c && rest.all isIdentifierRest

/-- An identifier that is no built-in spelling names a class. -/
def parse? (s : String) : Option Tag :=
  if s = "nil" ∨ s = "void" then some .nil
  else if s = "bool" then some .bool
  else if s = "int" then some .int
  else if s = "float" then some .float
  else if s = "String" then some .string
  else if s = "Object" then some (.object none)
  else if s = "Variant" then some .variant
  else if isIdentifier s then some (.object (some s))
  else none

def text : Tag → String
  | .nil => "nil"
  | .bool => "bool"
  | .int => "int"
  | .float => "float"
  | .string => "String"
  | .object none => "Object"
  | .object (some cls) => cls
  | .variant => "Variant"

def isNil : Tag → Bool
  | .nil => true
  | _ => false

/-- The class that a tag names. -/
def cls? : Tag → Option String
  | .object cls => cls
  | _ => none

end Tag
end ObjectBridge
