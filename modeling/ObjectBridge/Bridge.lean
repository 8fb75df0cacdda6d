import ObjectBridge.Bridge.Attribute
import ObjectBridge.Bridge.Namespace

/-! Bridges: a class database bound to an engine behind a channel. -/
namespace ObjectBridge

structure Bridge (σ : Type) extends Context σ where
  singletons : Singletons
  globals : Namespace

/-- Why a bridge does not come into being. -/
inductive BridgeError where
  | load (e : LoadError)
  | singleton (e : SingletonError)
  deriving DecidableEq

def BridgeError.message : BridgeError → String
  | .load e => e.message
  | .singleton e => e.message

namespace Bridge

/-- Types first, then singletons, then names. The cache is empty before. -/
def ofDatabase (db : Database) (channel : Channel σ) (options : Options) :
    EStateM BridgeError (World σ) (Bridge σ) := fun world =>
  match Lattice.ofDatabase db options with
  | .error e => .error (.load e) world
  | .ok lattice =>
    let ctx : Context σ := { channel, lattice, options }
    match Singletons.ofContext ctx world with
    | .error e world => .error (.singleton e) world
    | .ok singletons world =>
      .ok { ctx with
        singletons, globals := Namespace.ofParts lattice singletons db.constants } world

/-- A new bridge to an engine. -/
def start (db : Database) (channel : Channel σ) (options : Options) (native : σ) :
    EStateM.Result BridgeError (World σ) (Bridge σ) :=
  ofDatabase db channel options { native }

def debugText (b : Bridge σ) (cache : Cache) : String :=
  s!"Runtime \x7b classes: {b.lattice.size}, singletons: {b.singletons.size}, " ++
  s!"cache: IdentityCache \x7b entries: {cache.entries.size}, " ++
  s!"fallback: {b.options.unknownClassFallback.debugText} \x7d, " ++
  s!"options: {b.options.debugText} \x7d"

end Bridge
end ObjectBridge
