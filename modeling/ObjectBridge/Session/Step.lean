import ObjectBridge.Engine.Step
import ObjectBridge.Session

/-! What a client does in a session, one step at a time. -/
namespace ObjectBridge.Session

/-- Where a new value comes from. -/
inductive Source where
  | instantiate (cls : String)
  | wrap (h : Handle)
  | lookup (h : Handle)
  | singleton (name : String)
  | copy (operand : Operand)
  | call (on name : String) (args : List Operand)
  | invoke (on : String) (args : List Operand)
  | receive (raw : Variant) (coercion : Coercion)

inductive Step where
  | engine (step : Engine.Step)
  | produce (source : Source) (into : Option String)
  /-- Wrap an object while another wrap of it, made in between, fills the slot `winner`. -/
  | wrapRaced (h : Handle) (winner : String) (into : Option String)
  | globalValue (name : String) (into : Option String)
  | getAttribute (on name : String) (into : Option String)
  | setAttribute (on name : String) (value : Operand)
  | getClassMember (cls name : String)
  | setClassMember (cls name : String) (value : Operand)
  | setGlobal (name : String) (value : Operand)
  | isInstance (value : Operand) (cls : String)
  | drop (slot : String)
  | forget (h : Handle)
  | purge

inductive Answer where
  | done
  | flag (b : Bool)
  | count (n : Nat)
  | value (v : Value)
  | noValue
  | attribute (a : Attribute)
  | member (m : Member)
  | engine (a : Engine.Answer)
  deriving DecidableEq

/-- A value of a source; what it refers to belongs to the caller. -/
def produce (b : Bridge Engine) : Source → SessionM Value
  | .instantiate cls => return .object (← SessionM.ofBridge (b.instantiate cls))
  | .wrap h => return .object (← SessionM.ofBridge (b.wrap h))
  | .lookup h => do
    match ← SessionM.ofBridge (b.lookup h) with
    | some w => return .object w
    | none => return .nil
  | .singleton name =>
    match b.singletons[name]? with
    | none => return .nil
    | some s => do
      retain (some s.wrapper)
      return .object s.wrapper
  | .copy operand => do
    let v ← value operand
    retain v.object?
    return v
  | .call on name args => do
    let receiver ← object on
    let vs ← args.mapM value
    SessionM.ofBridge (b.callMember receiver name vs)
  | .invoke on args => do
    let (receiver, m) ← method on
    let vs ← args.mapM value
    SessionM.ofBridge (b.invoke receiver m vs)
  | .receive raw coercion => do
    match ← SessionM.ofBridge (b.receive coercion raw) with
    | .ok v => return v
    | .error m => throw (.mismatch m)

/-- The other wrap of a race. Its failure leaves the slot alone. -/
def intervene (b : Bridge Engine) (h : Handle) (winner : String) : SessionM Unit := fun s =>
  match b.wrap h s.world with
  | .ok w world => put winner (.value (.object w)) { s with world }
  | .error _ world => .ok () { s with world }

/-- The live wrapper, or a new one entered after another wrap. -/
def wrapRaced (b : Bridge Engine) (h : Handle) (winner : String) : SessionM Wrapper := do
  match ← SessionM.ofBridge (b.lookup h) with
  | some w => return w
  | none =>
    intervene b h winner
    SessionM.ofBridge (b.enter h)

/-- Keep what an attribute refers to. A signal refers to nothing and leaves the slot alone. -/
def keepAttribute (into : Option String) : Attribute → SessionM Unit
  | .value v => keep into (.value v)
  | .signal _ => pure ()
  | .method receiver m => keep into (.method receiver m)

def run (b : Bridge Engine) : Step → SessionM Answer
  | .engine step => return .engine (← SessionM.ofEngine (Engine.run step))
  | .produce source into => do
    let v ← produce b source
    keep into (.value v)
    return .value v
  | .wrapRaced h winner into => do
    let w ← wrapRaced b h winner
    keep into (.value (.object w))
    return .value (.object w)
  | .globalValue name into =>
    match (b.globals[name]? : Option Binding).bind (·.value?) with
    | none => return .noValue
    | some v => do
      retain v.object?
      keep into (.value v)
      return .value v
  | .getAttribute on name into => do
    let receiver ← object on
    let a ← SessionM.ofBridge (b.getAttribute receiver name)
    keepAttribute into a
    return .attribute a
  | .setAttribute on name operand => do
    let receiver ← object on
    let v ← value operand
    SessionM.ofBridge (b.setAttribute receiver name v)
    return .done
  | .getClassMember cls name => do
    let t ← type b cls
    return .member (← SessionM.ofBridge (BridgeM.ofExcept (t.member name)))
  | .setClassMember cls name operand => do
    let t ← type b cls
    let _ ← value operand
    throw (.bridge (t.assignError name))
  | .setGlobal name operand => do
    let _ ← value operand
    throw (.bridge (b.globals.assignError name))
  | .isInstance operand cls => return .flag (b.isInstance (← value operand) cls)
  | .drop slot => return .flag (← drop slot)
  | .forget h => return .flag (← SessionM.ofBridge (BridgeM.cached (·.forget h)))
  | .purge => return .count (← SessionM.ofBridge (BridgeM.cached (·.purge)))

/-- The session after a step, whether it failed or not. -/
def after (b : Bridge Engine) (s : Session) (step : Step) : Session :=
  match run b step s with
  | .ok _ s => s
  | .error _ s => s

end ObjectBridge.Session
