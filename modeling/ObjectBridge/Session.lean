import ObjectBridge.Bridge
import ObjectBridge.Engine.Call

/-! Sessions: an engine, a bridge to it, and a client that holds values and bound methods in named
slots. What a slot holds keeps its wrapper alive. -/
namespace ObjectBridge

/-- What a client holds in a slot. -/
inductive Held where
  | value (v : Value)
  | method (receiver : Wrapper) (binding : MethodBinding)
  deriving DecidableEq

namespace Held

def wrapper? : Held → Option Wrapper
  | .value v => v.object?
  | .method receiver _ => some receiver

end Held

/-- A plain value, or a copy of the value in a slot. -/
inductive Operand where
  | nil
  | bool (b : Bool)
  | int (i : Int64)
  | float (x : Float)
  | string (s : String)
  | slot (name : String)
  deriving DecidableEq

inductive SessionError where
  /-- A slot is missing or holds something else than is wanted. -/
  | noSlot
  | noType
  | engine (e : ChannelError)
  | bridge (e : BindError)
  | mismatch (m : Mismatch)
  deriving DecidableEq

structure Session where
  world : World Engine
  slots : NameMap Held := ∅

/-- An act of the client. A failure may have changed the session too. -/
abbrev SessionM (α : Type) := EStateM SessionError Session α

namespace SessionM

def ofBridge (run : BridgeM Engine α) : SessionM α := fun s =>
  match run s.world with
  | .ok a world => .ok a { s with world }
  | .error e world => .error (.bridge e) { s with world }

def ofEngine (run : EngineM α) : SessionM α := fun s =>
  match run s.world.native with
  | .ok a native => .ok a { s with world := { s.world with native } }
  | .error e native => .error (.engine e) { s with world := { s.world with native } }

end SessionM

namespace Session

/-- The value in a slot. -/
def value? (s : Session) (slot : String) : Option Value :=
  match s.slots[slot]? with
  | some (.value v) => some v
  | _ => none

/-- The object in a slot. -/
def object? (s : Session) (slot : String) : Option Wrapper := (s.value? slot).bind (·.object?)

def operand? (s : Session) : Operand → Option Value
  | .nil => some .nil
  | .bool b => some (.bool b)
  | .int i => some (.int i)
  | .float x => some (.float x)
  | .string t => some (.string t)
  | .slot name => s.value? name

def value (o : Operand) : SessionM Value := fun s =>
  match s.operand? o with
  | some v => .ok v s
  | none => .error .noSlot s

def object (slot : String) : SessionM Wrapper := fun s =>
  match s.object? slot with
  | some w => .ok w s
  | none => .error .noSlot s

/-- The bound method in a slot. -/
def method (slot : String) : SessionM (Wrapper × MethodBinding) := fun s =>
  match s.slots[slot]? with
  | some (.method receiver binding) => .ok (receiver, binding) s
  | _ => .error .noSlot s

def type (b : Bridge Engine) (cls : String) : SessionM TypeInfo :=
  match b.lattice.get? cls with
  | some t => pure t
  | none => throw .noType

def retain (w? : Option Wrapper) : SessionM Unit :=
  match w? with
  | some w => SessionM.ofBridge (BridgeM.retain w)
  | none => pure ()

def release (w? : Option Wrapper) : SessionM Unit :=
  match w? with
  | some w => SessionM.ofBridge (BridgeM.release w)
  | none => pure ()

/-- Put something into a slot, together with its reference. What was there is released. -/
def put (slot : String) (held : Held) : SessionM Unit := do
  let old := (← get).slots[slot]?
  modify fun s => { s with slots := s.slots.insert slot held }
  release (old.bind (·.wrapper?))

/-- Empty a slot: was there anything in it? -/
def drop (slot : String) : SessionM Bool := do
  let old := (← get).slots[slot]?
  modify fun s => { s with slots := s.slots.erase slot }
  release (old.bind (·.wrapper?))
  return old.isSome

/-- Keep something in a slot, or give its reference back at once. -/
def keep (into : Option String) (held : Held) : SessionM Unit :=
  match into with
  | some slot => put slot held
  | none => release held.wrapper?

def liveCount (s : Session) : Nat := s.world.cache.liveCount

def objectCount (s : Session) : Nat := s.world.native.objectCount

/-- The number of slots with objects, which outlive the bridge. -/
def heldObjects (s : Session) : Nat :=
  (s.slots.values.filter fun
    | .value (.object _) => true
    | _ => false).length

end Session
end ObjectBridge
