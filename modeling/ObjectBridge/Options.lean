/-! Options of a bridge, and the text in which they are stored. -/
namespace ObjectBridge

/-- What becomes of an object whose class is not in the database. -/
inductive UnknownClassPolicy where
  /-- It counts as an instance of the root class. -/
  | root
  /-- It is refused. -/
  | error
  deriving DecidableEq

def UnknownClassPolicy.name : UnknownClassPolicy → String
  | .root => "root"
  | .error => "error"

structure Options where
  /-- Bind methods whose names start with an underscore. -/
  exposePrivateMethods : Bool := false
  unknownClassFallback : UnknownClassPolicy := .root
  /-- An object argument must be an instance of the class that its parameter declares. -/
  strictObjectArgs : Bool := true
  deriving DecidableEq

/-- One line for each option, in a fixed order. -/
def Options.text (o : Options) : String :=
  s!"expose_private_methods = {o.exposePrivateMethods}\n" ++
  s!"unknown_class_fallback = \"{o.unknownClassFallback.name}\"\n" ++
  s!"strict_object_args = {o.strictObjectArgs}\n"

/-- Short form for diagnostics. -/
def UnknownClassPolicy.debugText : UnknownClassPolicy → String
  | .root => "Root"
  | .error => "Error"

def Options.debugText (o : Options) : String :=
  s!"RuntimeOptions \x7b expose_private_methods: {o.exposePrivateMethods}, " ++
  s!"unknown_class_fallback: {o.unknownClassFallback.debugText}, " ++
  s!"strict_object_args: {o.strictObjectArgs} \x7d"

end ObjectBridge
