import ObjectBridge.Engine

/-! Calls of native methods. The body of a method acts on an engine through a few primitives
alone. A method that no class of the receiver declares may still be an accessor by its name:
`get_f` and `is_f` read the field `f`, `set_f` writes it. -/
namespace ObjectBridge

def except (r : Except ChannelError α) : ChannelM σ α :=
  match r with
  | .ok a => pure a
  | .error e => throw e

/-- A method call: receiver, method and arguments. -/
abbrev CallM (σ : Type) := Handle → String → List Variant → ChannelM σ Variant

abbrev Call := CallM Engine

/-- What a call may do to an engine; `σ` is its state. -/
structure Primitives (σ : Type) where
  classNameOf : Handle → ChannelM σ String
  field : Handle → String → ChannelM σ Variant
  setField : Handle → String → Variant → ChannelM σ Unit
  create : String → ChannelM σ Handle
  destroy : Handle → ChannelM σ Bool
  /-- The body that a class has for a method. -/
  findMethod? : String → String → ChannelM σ (Option Script)

/-- The object that a script's value refers to. -/
def asObject (v : Variant) : ChannelM σ Handle :=
  match v with
  | .object h => pure h
  | v => throw (.typeMismatch Kind.object.text v.kindName)

/-- What follows a leading text. -/
def afterLeading (leading s : String) : Option String :=
  if leading.toList.isPrefixOf s.toList then
    some (String.ofList (s.toList.drop leading.toList.length))
  else none

/-- The field that a method reads by its name. -/
def getterField? (method : String) : Option String :=
  (afterLeading "get_" method).or (afterLeading "is_" method)

/-- The field that a method writes by its name. -/
def setterField? (method : String) : Option String := afterLeading "set_" method

/-- How deep calls may be nested. The limit and the refusal beyond it stand for a stack that is
exhausted by a method that calls itself without end; there is no other limit. -/
def callDepth : Nat := 10000

namespace Primitives

variable (p : Primitives σ)

mutual

/-- The value of a script in a call; `back` calls into the engine again. -/
def eval (back : CallM σ) (this : Handle) (args : List Variant) : Script → ChannelM σ Variant
  | .const v => pure v
  | .arg index wanted => except (do (← Variant.argument args index).convert wanted)
  | .argCount => pure (.int (Int64.ofNat args.length))
  | .receiver => pure (.object this)
  | .receiverId => pure (.int this.raw.toInt64)
  | .field name on => do
    let h ← asObject (← eval back this args on)
    p.field h name
  | .className on => do
    let h ← asObject (← eval back this args on)
    return .string (← p.classNameOf h)
  | .setField name value on => do
    let v ← eval back this args value
    let h ← asObject (← eval back this args on)
    p.setField h name v
    return .nil
  | .increment name amount => do
    let old := ((← p.field this name).int?).getD 0
    let new := Variant.int (old + amount)
    p.setField this name new
    return new
  | .truthy value => do
    let v ← eval back this args value
    return .bool v.truthy
  | .create cls => do
    return .object (← p.create cls)
  | .destroy on => do
    let h ← asObject (← eval back this args on)
    return .bool (← p.destroy h)
  | .call method params on => do
    let vs ← evalAll back this args params
    let h ← asObject (← eval back this args on)
    back h method vs
  | .fail reason => throw (.callFailed reason)
  | .sequence steps => evalLast back this args .nil steps

def evalAll (back : CallM σ) (this : Handle) (args : List Variant) :
    List Script → ChannelM σ (List Variant)
  | [] => pure []
  | s :: rest => do
    let v ← eval back this args s
    return v :: (← evalAll back this args rest)

/-- The value of the last script, or the given one if there is none. -/
def evalLast (back : CallM σ) (this : Handle) (args : List Variant) (last : Variant) :
    List Script → ChannelM σ Variant
  | [] => pure last
  | s :: rest => do
    let v ← eval back this args s
    evalLast back this args v rest

end

/-- A call of a method that no class declares. A reader takes no argument, a writer one. -/
def accessField (cls : String) (h : Handle) (method : String) (args : List Variant) :
    ChannelM σ Variant :=
  match getterField? method, setterField? method, args with
  | some name, _, [] => p.field h name
  | _, some name, [value] => do
    p.setField h name value
    return .nil
  | _, _, _ => throw (.unknownMethod cls method)

/-- Run the nearest method, with `back` for the calls that it makes itself. -/
def dispatch (back : CallM σ) : CallM σ := fun h method args => do
  let cls ← p.classNameOf h
  match ← p.findMethod? cls method with
  | some body => p.eval back h args body
  | none => p.accessField cls h method args

/-- A call that may be nested so deep. -/
def callWithin : Nat → CallM σ
  | 0, _, _, _ => throw (.callFailed "calls are nested too deep")
  | depth + 1, h, method, args => p.dispatch (callWithin depth) h method args

def call : CallM σ := p.callWithin callDepth

end Primitives

namespace Engine

def primitives : Primitives Engine where
  classNameOf := classNameOf
  field := field
  setField := setField
  create := create
  destroy := destroy
  findMethod? cls method := do return (← get).findMethod? cls method

def call : Call := primitives.call

/-- The engine as the other side of a channel. -/
def channel : Channel Engine where
  call := call
  classNameOf := classNameOf
  lookupSingleton := lookupSingleton
  instantiate := instantiate

end Engine

/-- The value of a body on an engine. -/
def Script.eval (back : Call) (this : Handle) (args : List Variant) (body : Script) :
    EngineM Variant :=
  Engine.primitives.eval back this args body

end ObjectBridge
