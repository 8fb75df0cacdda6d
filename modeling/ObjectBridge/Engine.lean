import ObjectBridge.Engine.Script

/-! A small engine: classes with single inheritance, objects with a table of fields, named
singletons and explicit destruction. -/
namespace ObjectBridge

structure EngineClass where
  /-- Need not be defined. -/
  parent : Option String := none
  /-- Initial fields of new objects. -/
  defaults : NameMap Variant := ∅
  instantiable : Bool := true

structure EngineObject where
  cls : String
  fields : NameMap Variant := ∅

structure Engine where
  classes : NameMap EngineClass := ∅
  objects : HandleMap EngineObject := ∅
  singletons : NameMap Handle := ∅
  methods : MethodTable := (∅ : NameMap (NameMap Script))
  /-- The handle of the next object. -/
  next : Handle := ⟨1⟩

abbrev EngineM (α : Type) := ChannelM Engine α

namespace Engine

/-! Classes -/

/-- A class defined again starts afresh. -/
def defineClass (e : Engine) (name : String) (parent : Option String) : Engine :=
  { e with classes := e.classes.insert name { parent } }

/-- Change a class; one that is not defined is left alone. -/
def changeClass (e : Engine) (name : String) (change : EngineClass → EngineClass) : Engine :=
  match e.classes[name]? with
  | some c => { e with classes := e.classes.insert name (change c) }
  | none => e

def setDefault (e : Engine) (cls field : String) (value : Variant) : Engine :=
  e.changeClass cls fun c => { c with defaults := c.defaults.insert field value }

def setInstantiable (e : Engine) (cls : String) (instantiable : Bool) : Engine :=
  e.changeClass cls fun c => { c with instantiable }

def registerMethod (e : Engine) (cls method : String) (body : Script) : Engine :=
  { e with methods := e.methods.register cls method body }

def parent? (e : Engine) (cls : String) : Option String :=
  (e.classes[cls]? : Option EngineClass).bind (·.parent)

/-- Extend a walk along parents until there is none or it comes back to a class. -/
def walk (e : Engine) (seen : List String) : Nat → String → List String
  | 0, _ => []
  | fuel + 1, cls =>
    if cls ∈ seen then []
    else cls :: match e.parent? cls with
      | none => []
      | some parent => walk e (cls :: seen) fuel parent

/-- A class and those above it. Only the last one may be undefined, so one more than the number
of classes bounds the walk. -/
def lineage (e : Engine) (cls : String) : List String := e.walk [] (e.classes.size + 1) cls

def defaultsOf (e : Engine) (cls : String) : NameMap Variant :=
  match e.classes[cls]? with
  | some c => c.defaults
  | none => ∅

/-- Defaults from the root down, so that those of the nearest class stay. -/
def initialFields (e : Engine) (cls : String) : NameMap Variant :=
  (e.lineage cls).reverse.foldl (fun fields c => fields ∪ e.defaultsOf c) ∅

/-- The method of the nearest class that has one of that name. -/
def findMethod? (e : Engine) (cls method : String) : Option Script :=
  (e.lineage cls).findSome? fun c => e.methods.get? c method

/-! Objects -/

def isAlive (e : Engine) (h : Handle) : Bool := e.objects.contains h

def objectCount (e : Engine) : Nat := e.objects.size

/-- Create an object, whether its class may be instantiated or not. -/
def create (cls : String) : EngineM Handle := fun e =>
  if cls ∈ e.classes then
    .ok e.next { e with
      objects := e.objects.insert e.next ⟨cls, e.initialFields cls⟩
      next := ⟨e.next.raw + 1⟩ }
  else .error (.unknownClass cls) e

/-- Was the object alive? -/
def destroy (h : Handle) : EngineM Bool := fun e =>
  .ok (e.isAlive h) { e with objects := e.objects.erase h }

def object (h : Handle) : EngineM EngineObject := fun e =>
  match e.objects[h]? with
  | some o => .ok o e
  | none => .error (.destroyedObject h) e

/-- A field that was never set is nil. -/
def field (h : Handle) (name : String) : EngineM Variant := do
  return (← object h).fields.getD name .nil

def setField (h : Handle) (name : String) (value : Variant) : EngineM Unit := do
  let o ← object h
  modify fun e =>
    { e with objects := e.objects.insert h { o with fields := o.fields.insert name value } }

def classNameOf (h : Handle) : EngineM String := do
  return (← object h).cls

/-- Create an object and publish it; a failure leaves the name as it was. -/
def registerSingleton (name cls : String) : EngineM Handle := do
  let h ← create cls
  modify fun e => { e with singletons := e.singletons.insert name h }
  return h

def lookupSingleton (name : String) : EngineM Handle := fun e =>
  match e.singletons[name]? with
  | none => .error (.unknownSingleton name) e
  | some h => if e.isAlive h then .ok h e else .error (.destroyedObject h) e

/-- Create an object of a class that may be instantiated. -/
def instantiate (cls : String) : EngineM Handle := fun e =>
  match e.classes[cls]? with
  | none => .error (.unknownClass cls) e
  | some c => if c.instantiable then create cls e else .error (.notInstantiable cls) e

def debugText (e : Engine) : String :=
  s!"HeadlessEngine \x7b classes: {e.classes.size}, objects: {e.objects.size}, " ++
  s!"singletons: {e.singletons.size} \x7d"

end Engine
end ObjectBridge
