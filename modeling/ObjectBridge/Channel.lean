import ObjectBridge.Variant

/-! The channel to an engine: four synchronous requests, each answered or refused.
`σ` is the engine's state; a refused request may have changed it too. -/
namespace ObjectBridge

inductive ChannelError where
  | destroyedObject (h : Handle)
  | unknownMethod (cls method : String)
  | unknownClass (cls : String)
  | unknownSingleton (name : String)
  | notInstantiable (cls : String)
  | typeMismatch (expected got : String)
  | callFailed (reason : String)
  deriving DecidableEq

def ChannelError.message : ChannelError → String
  | .destroyedObject h => s!"Object {h.text} was destroyed"
  | .unknownMethod cls method => s!"Class '{cls}' has no method '{method}'"
  | .unknownClass cls => s!"Unknown class: {cls}"
  | .unknownSingleton name => s!"Unknown singleton: {name}"
  | .notInstantiable cls => s!"Class '{cls}' cannot be instantiated"
  | .typeMismatch expected got => s!"Type mismatch: expected {expected}, got {got}"
  | .callFailed reason => reason

/-- An engine step: a state change that ends in an answer or a refusal. -/
abbrev ChannelM (σ α : Type) := EStateM ChannelError σ α

structure Channel (σ : Type) where
  /-- Run a method on an object with positional arguments. -/
  call : Handle → String → List Variant → ChannelM σ Variant
  /-- The most specific class name of a live object. -/
  classNameOf : Handle → ChannelM σ String
  /-- The object registered under a singleton name. -/
  lookupSingleton : String → ChannelM σ Handle
  /-- A new object of a class. -/
  instantiate : String → ChannelM σ Handle

/-- What was asked of a channel. -/
inductive Request where
  | call (receiver : Handle) (method : String) (args : List Variant)
  | classNameOf (object : Handle)
  | lookupSingleton (name : String)
  | instantiate (cls : String)
  deriving DecidableEq

namespace Channel

/-- Run a request on the first component and note it, newest first, in the second. -/
def noted (request : ρ) (run : ChannelM σ α) : ChannelM (σ × List ρ) α :=
  fun (state, log) =>
    match run state with
    | .ok a next => .ok a (next, request :: log)
    | .error e next => .error e (next, request :: log)

/-- The same channel with a record of all that was asked of it. -/
def recorded (channel : Channel σ) : Channel (σ × List Request) where
  call h method args := noted (.call h method args) (channel.call h method args)
  classNameOf h := noted (.classNameOf h) (channel.classNameOf h)
  lookupSingleton name := noted (.lookupSingleton name) (channel.lookupSingleton name)
  instantiate cls := noted (.instantiate cls) (channel.instantiate cls)

end Channel
end ObjectBridge
