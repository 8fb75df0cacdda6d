import ObjectBridge.Bridge.Singleton

/-! The namespace of a bridge: the names that the embedding language sees, for classes, singletons
and global constants. None of them can be assigned. -/
namespace ObjectBridge

inductive Binding where
  | cls (type : TypeInfo)
  | singleton (s : Singleton)
  | constant (value : Int64)
  deriving DecidableEq

namespace Binding

def kindName : Binding → String
  | .cls _ => "class"
  | .singleton _ => "singleton"
  | .constant _ => "constant"

def cls? : Binding → Option TypeInfo
  | .cls t => some t
  | _ => none

def singleton? : Binding → Option Wrapper
  | .singleton s => some s.wrapper
  | _ => none

def constant? : Binding → Option Int64
  | .constant i => some i
  | _ => none

/-- What the name stands for as a value. A class is none. -/
def value? : Binding → Option Value
  | .cls _ => none
  | .singleton s => some (.object s.wrapper)
  | .constant i => some (.int i)

end Binding

/-- Bindings by name. -/
abbrev Namespace := NameMap Binding

namespace Namespace

def ofClasses (lattice : Lattice) : Namespace :=
  NameMap.ofPairs (lattice.types.toList.map fun t => (t.name, .cls t))

/-- A singleton takes the place of a class of its name, a constant that of either. -/
def ofParts (lattice : Lattice) (singletons : Singletons) (constants : NameMap Int64) :
    Namespace :=
  ofClasses lattice ∪ singletons.map (fun _ s => .singleton s) ∪
    constants.map fun _ i => .constant i

/-- No name can be assigned. -/
def assignError (n : Namespace) (name : String) : BindError :=
  if name ∈ n then .immutableMember "module" name else .unknownMember "module" name

end Namespace
end ObjectBridge
