import ObjectBridge.Bridge.Context

/-! Singletons of a bridge: looked up once, and kept alive as long as the bridge. -/
namespace ObjectBridge

structure Singleton where
  /-- The name under which it is bound. -/
  name : String
  /-- The class that declares it. -/
  type : TypeInfo
  wrapper : Wrapper
  deriving DecidableEq

/-- Singletons by the names under which they are bound. -/
abbrev Singletons := NameMap Singleton

/-- The singleton that could not be had, and why. -/
structure SingletonError where
  name : String
  source : BindError
  deriving DecidableEq

def SingletonError.message (e : SingletonError) : String :=
  s!"Failed to obtain singleton '{e.name}': {e.source.message}"

namespace Singleton

/-- Declared under one name by one class. -/
def sameMarker (a b : Singleton) : Bool := a.name == b.name && a.type.id == b.type.id

def markerText (s : Singleton) : String := s!"SingletonMarker({s.name}: {s.type.name})"

/-- The singleton of a class. -/
def ofType (ctx : Context σ) (t : TypeInfo) : BridgeM σ Singleton := do
  let name := t.decl.bindingName
  let h ← BridgeM.native "lookup_singleton" (ctx.channel.lookupSingleton name)
  return ⟨name, t, ← ctx.wrap h⟩

end Singleton

namespace Singletons

/-- The singletons of the given types in order. The first failure ends it all. -/
def addAll (ctx : Context σ) (registry : Singletons) :
    List TypeInfo → EStateM SingletonError (World σ) Singletons
  | [] => pure registry
  | t :: rest => fun world =>
    match Singleton.ofType ctx t world with
    | .error e world => .error ⟨t.decl.bindingName, e⟩ world
    | .ok s world => addAll ctx (registry.insert s.name s) rest world

def ofContext (ctx : Context σ) : EStateM SingletonError (World σ) Singletons :=
  addAll ctx ∅ (ctx.lattice.types.toList.filter (·.decl.singleton))

/-- Are two names bound to one singleton, or neither to any? -/
def sameMarker (r : Singletons) (a b : String) : Bool :=
  match r[a]?, r[b]? with
  | some a, some b => a.sameMarker b
  | none, none => true
  | _, _ => false

end Singletons
end ObjectBridge
