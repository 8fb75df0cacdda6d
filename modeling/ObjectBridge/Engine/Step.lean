import ObjectBridge.ClassDecl
import ObjectBridge.Engine.Call

/-! What an owner of an engine may do to it, one step at a time. -/
namespace ObjectBridge.Engine

inductive Step where
  | defineClass (name : String) (parent : Option String)
  | setDefault (cls field : String) (value : Variant)
  | setInstantiable (cls : String) (instantiable : Bool)
  | registerMethod (cls method : String) (body : Script)
  | registerSingleton (name cls : String)
  | create (cls : String)
  | instantiate (cls : String)
  | lookupSingleton (name : String)
  | destroy (h : Handle)
  | isAlive (h : Handle)
  | field (h : Handle) (name : String)
  | setField (h : Handle) (name : String) (value : Variant)
  | classNameOf (h : Handle)
  | call (h : Handle) (method : String) (args : List Variant)
  | describe

inductive Answer where
  | done
  | flag (b : Bool)
  | handle (h : Handle)
  | value (v : Variant)
  | text (s : String)
  deriving DecidableEq

def run : Step → EngineM Answer
  | .defineClass name parent => do
    modify (·.defineClass name parent)
    return .done
  | .setDefault cls field value => do
    modify (·.setDefault cls field value)
    return .done
  | .setInstantiable cls instantiable => do
    modify (·.setInstantiable cls instantiable)
    return .done
  | .registerMethod cls method body => do
    modify (·.registerMethod cls method body)
    return .done
  | .registerSingleton name cls => return .handle (← registerSingleton name cls)
  | .create cls => return .handle (← create cls)
  | .instantiate cls => return .handle (← instantiate cls)
  | .lookupSingleton name => return .handle (← lookupSingleton name)
  | .destroy h => return .flag (← destroy h)
  | .isAlive h => return .flag ((← get).isAlive h)
  | .field h name => return .value (← field h name)
  | .setField h name value => do
    setField h name value
    return .done
  | .classNameOf h => return .text (← classNameOf h)
  | .call h method args => return .value (← call h method args)
  | .describe => return .text (← get).debugText

/-- The state after a step, whether it was refused or not. -/
def after (e : Engine) (step : Step) : Engine :=
  match run step e with
  | .ok _ e => e
  | .error _ e => e

/-- An engine with the given history. -/
def ofHistory (steps : List Step) : Engine := steps.foldl after {}

/-- Steps that define the classes of a database with their parents. -/
def classSteps (classes : List ClassDecl) : List Step :=
  classes.map fun c => .defineClass c.name c.parent

/-- Steps that publish an object for every singleton class. -/
def singletonSteps (classes : List ClassDecl) : List Step :=
  (classes.filter (·.singleton)).map fun c => .registerSingleton c.bindingName c.name

end ObjectBridge.Engine
