import ObjectBridge.Lattice
import ObjectBridge.Report

/-! Summaries: what a class database holds, in numbers. -/
namespace ObjectBridge

structure Summary where
  classes : Nat
  methods : Nat
  /-- Private methods that are not bound. -/
  hiddenMethods : Nat
  properties : Nat
  /-- Properties without a setter. -/
  readOnly : Nat
  constants : Nat
  signals : Nat
  singletons : List String
  /-- Constants that belong to no class. -/
  globals : Nat
  /-- The length of the longest chain of ancestors. -/
  depth : Nat
  deriving DecidableEq

namespace Summary

def total (f : ClassDecl → Nat) (classes : List ClassDecl) : Nat :=
  classes.foldr (fun c n => f c + n) 0

def hiddenIn (options : Options) (c : ClassDecl) : Nat :=
  if options.exposePrivateMethods then 0 else c.methods.countP (·.isPrivate)

/-- What the classes declare, whether another member hides it or not. -/
def ofLattice (db : Database) (options : Options) (l : Lattice) : Summary :=
  let types := l.types.toList
  let classes := types.map (·.decl)
  { classes := db.size
    methods := total (·.methods.length) classes
    hiddenMethods := total (hiddenIn options) classes
    properties := total (·.properties.size) classes
    readOnly := total (·.properties.values.countP (·.isReadOnly)) classes
    constants := total (·.constants.size) classes
    signals := total (·.signals.length) classes
    singletons := (classes.filter (·.singleton)).map (·.bindingName)
    globals := db.constants.size
    depth := (types.map (·.chain.length)).foldl max 0 }

def methodDetails (s : Summary) (options : Options) : Report :=
  if 0 < s.hiddenMethods then [Report.note s!"{s.hiddenMethods} private, hidden"]
  else if options.exposePrivateMethods then [Report.note "private methods exposed"]
  else []

def report (s : Summary) (options : Options) (root : String) : Report :=
  Report.count "classes" s.classes
    [Report.note s!"root {root}, deepest chain {s.depth}"] ++
  Report.count "methods" s.methods (s.methodDetails options) ++
  Report.count "properties" s.properties
    (if 0 < s.readOnly then [Report.note s!"{s.readOnly} read-only"] else []) ++
  Report.count "constants" s.constants [] ++
  Report.count "signals" s.signals [] ++
  Report.count "singletons" s.singletons.length
    (if s.singletons.isEmpty then []
      else [Report.highlight (String.intercalate ", " s.singletons)]) ++
  Report.count "globals" s.globals []

end Summary
end ObjectBridge
