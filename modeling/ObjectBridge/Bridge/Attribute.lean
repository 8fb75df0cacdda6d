import ObjectBridge.Bridge.Context

/-! Attributes: what a use of a member does. A property is read and written through its
accessors, a method is called or kept with its receiver, all else is read-only. -/
namespace ObjectBridge

/-- What reading a member gives. The references in it belong to the reader. -/
inductive Attribute where
  | value (v : Value)
  | signal (name : String)
  | method (receiver : Wrapper) (binding : MethodBinding)
  deriving DecidableEq

namespace TypeInfo

/-- The member of that name; no other class is searched. -/
def member (t : TypeInfo) (name : String) : Except BindError Member :=
  match t.member? name with
  | some m => .ok m
  | none => .error (.unknownMember t.name name)

/-- No member can be assigned on a class. -/
def assignError (t : TypeInfo) (name : String) : BindError :=
  match t.member name with
  | .ok _ => .immutableMember t.name name
  | .error e => e

end TypeInfo

namespace Context

/-- Call a method. The arguments are checked before the engine is asked. -/
def invoke (ctx : Context σ) (receiver : Wrapper) (m : MethodBinding) (args : List Value) :
    BridgeM σ Value := do
  let raws ← BridgeM.ofExcept
    (Crossing.args ctx.lattice ctx.options.strictObjectArgs m.qualified args m.params)
  let raw ← BridgeM.native m.decl.name (ctx.channel.call receiver.handle m.decl.name raws)
  ctx.receiveResult m.decl.name m.returns raw

/-- Read a property through its getter. -/
def readProperty (ctx : Context σ) (receiver : Wrapper) (p : PropertyBinding) :
    BridgeM σ Value := do
  let getter := p.decl.getter
  let raw ← BridgeM.native getter (ctx.channel.call receiver.handle getter [])
  ctx.receiveResult getter p.coercion raw

/-- Write a property through its setter, if it has one. -/
def writeProperty (ctx : Context σ) (receiver : Wrapper) (p : PropertyBinding) (value : Value) :
    BridgeM σ Unit :=
  match p.decl.setter with
  | none => throw (.immutableMember receiver.className p.decl.name)
  | some setter =>
    match Crossing.toVariant ctx.lattice ctx.options.strictObjectArgs p.coercion value with
    | .error m => throw (m.argument (p.owner ++ "." ++ setter) 0)
    | .ok raw => do
      let _ ← BridgeM.native setter (ctx.channel.call receiver.handle setter [raw])

/-- Create an object of a class and wrap it. -/
def instantiate (ctx : Context σ) (cls : String) : BridgeM σ Wrapper :=
  match ctx.lattice.get? cls with
  | none => throw (.unknownClass cls)
  | some t =>
    if t.decl.instantiable then do
      let h ← BridgeM.native "instantiate" (ctx.channel.instantiate t.name)
      ctx.wrap h
    else throw (.notInstantiable t.name)

/-- Is a value an object of the class or one below it? -/
def isInstance (ctx : Context σ) (value : Value) (cls : String) : Bool :=
  match value, ctx.lattice.get? cls with
  | .object w, some t => w.isInstanceOf t
  | _, _ => false

def getAttribute (ctx : Context σ) (receiver : Wrapper) (name : String) :
    BridgeM σ Attribute := do
  match ← BridgeM.ofExcept (receiver.type.member name) with
  | .property p => return .value (← ctx.readProperty receiver p)
  | .constant _ _ i => return .value (.int i)
  | .signal _ name => return .signal name
  | .method m =>
    BridgeM.retain receiver
    return .method receiver m

def setAttribute (ctx : Context σ) (receiver : Wrapper) (name : String) (value : Value) :
    BridgeM σ Unit := do
  match ← BridgeM.ofExcept (receiver.type.member name) with
  | .property p => ctx.writeProperty receiver p value
  | _ => throw (.immutableMember receiver.className name)

def callMember (ctx : Context σ) (receiver : Wrapper) (name : String) (args : List Value) :
    BridgeM σ Value := do
  match ← BridgeM.ofExcept (receiver.type.member name) with
  | .method m => ctx.invoke receiver m args
  | _ => throw (.notCallable receiver.className name)

end Context
end ObjectBridge
