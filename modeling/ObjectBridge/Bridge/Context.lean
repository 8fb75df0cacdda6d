import ObjectBridge.Cache
import ObjectBridge.Crossing

/-! Crossings: raw values of a channel turned into values that the embedding side holds. -/
namespace ObjectBridge

/-- The engine behind the channel and the wrappers in front of it. -/
structure World (σ : Type) where
  native : σ
  cache : Cache := {}

/-- A use of the bridge: a change of the world that ends in a value or an error. -/
abbrev BridgeM (σ α : Type) := EStateM BindError (World σ) α

/-- What every crossing needs and none changes. -/
structure Context (σ : Type) where
  channel : Channel σ
  lattice : Lattice
  options : Options

namespace BridgeM

/-- A request to the channel. Its refusal is reported as it is and nothing is tried again. -/
def native (method : String) (run : ChannelM σ α) : BridgeM σ α := fun w =>
  match run w.native with
  | .ok a native => .ok a { w with native }
  | .error e native => .error (.nativeCall method e) { w with native }

def cached (change : Cache → α × Cache) : BridgeM σ α := fun w =>
  let (a, cache) := change w.cache
  .ok a { w with cache }

def ofExcept (r : Except BindError α) : BridgeM σ α :=
  match r with
  | .ok a => pure a
  | .error e => throw e

def retain (w : Wrapper) : BridgeM σ Unit := cached fun c => ((), c.retain w)

def release (w : Wrapper) : BridgeM σ Unit := cached fun c => ((), c.release w)

end BridgeM

namespace Context

/-- The type for a class name that the engine gave. -/
def resolve (ctx : Context σ) (cls : String) : Except BindError TypeInfo :=
  match ctx.lattice.get? cls with
  | some t => .ok t
  | none =>
    match ctx.options.unknownClassFallback with
    | .root => .ok ctx.lattice.root
    | .error => .error (.unknownClass cls)

/-- A reference to the live wrapper of a handle. -/
def lookup (_ : Context σ) (h : Handle) : BridgeM σ (Option Wrapper) :=
  BridgeM.cached fun c => c.lookup h

/-- The type of an object, asked of the engine. -/
def typeOf (ctx : Context σ) (h : Handle) : BridgeM σ TypeInfo := do
  let cls ← BridgeM.native "class_name_of" (ctx.channel.classNameOf h)
  BridgeM.ofExcept (ctx.resolve cls)

/-- The wrapper of a handle that had no live one. -/
def enter (ctx : Context σ) (h : Handle) : BridgeM σ Wrapper := do
  let type ← ctx.typeOf h
  BridgeM.cached fun c => c.enter h type

/-- The live wrapper of a handle, or a new one. The reference belongs to the caller. -/
def wrap (ctx : Context σ) (h : Handle) : BridgeM σ Wrapper := do
  match ← ctx.lookup h with
  | some w => return w
  | none => ctx.enter h

/-- A raw result as a value. A mismatch is an error of its own, other than one of wrapping. -/
def receive (ctx : Context σ) (coercion : Coercion) (raw : Variant) :
    BridgeM σ (Except Mismatch Value) := do
  match Crossing.receive coercion raw with
  | .error m => return .error m
  | .ok (.value v) => return .ok v
  | .ok (.object h) => return .ok (.object (← ctx.wrap h))

/-- The result of a method as a value. -/
def receiveResult (ctx : Context σ) (method : String) (coercion : Coercion) (raw : Variant) :
    BridgeM σ Value := do
  match ← ctx.receive coercion raw with
  | .ok v => return v
  | .error m => throw (m.result method)

end Context
end ObjectBridge
