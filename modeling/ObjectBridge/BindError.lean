import ObjectBridge.Channel

/-! Why a use of a bound object fails. -/
namespace ObjectBridge

inductive BindError where
  /-- An argument does not fit; without an index, their number does not. -/
  | argumentType (method : String) (index : Option Nat) (fault : String)
  | immutableMember (cls member : String)
  | nativeCall (method : String) (source : ChannelError)
  | unknownMember (cls member : String)
  | notCallable (cls member : String)
  | notInstantiable (cls : String)
  | unknownClass (cls : String)
  deriving DecidableEq

def BindError.message : BindError → String
  | .argumentType method _ fault => s!"{method}: {fault}"
  | .immutableMember cls member => s!"'{cls}.{member}' is read-only"
  | .nativeCall method source => s!"Native call '{method}' failed: {source.message}"
  | .unknownMember cls member => s!"'{cls}' has no member '{member}'"
  | .notCallable cls member => s!"'{cls}.{member}' is not callable"
  | .notInstantiable cls => s!"Class '{cls}' cannot be instantiated"
  | .unknownClass cls => s!"Unknown class '{cls}'"

end ObjectBridge
