import ObjectBridge.Database
import ObjectBridge.Proofs.Database.Trips

/-! Loading with metered walks. The passes are those of loading, but every walk along parents has the
same fuel, and one that exhausts it takes the whole run with it. Only the search for cycles is
guarded against coming back to a class; what all other walks look at is written down in a log. -/
namespace ObjectBridge

/-- Runs that write down which classes an unguarded walk looked at. -/
abbrev Metered := ExceptT LoadError (StateT (List (List ClassDecl)) Option)

namespace Metered

/-- A walk without a guard. -/
def search (fuel : Nat) (index : ClassIndex) (answer : ClassDecl → Option β)
    (start : Option ClassDecl) : Metered (Trip ClassDecl β) :=
  fun log => (travel index.parent? (fun _ => answer) fuel [] start).map fun trip =>
    (.ok trip,log ++ [trip.visited])

/-- Walks end at what is settled, and fail where they come back to a class. -/
def guard (settled : List String) (path : List ClassDecl) (c : ClassDecl) :
    Option (Except LoadError Unit) :=
  if c.name ∈ settled then some (.ok ())
  else if path.any (·.name == c.name) then some (.error (.cycle (Hierarchy.closedWalk path c)))
  else none

/-- What a guarded walk left behind, unless the guard made it fail. -/
def outcome (trip : Trip ClassDecl (Except LoadError Unit)) : Except LoadError (List ClassDecl) :=
  match trip.answer? with
  | some (.error e) => .error e
  | _ => .ok trip.passed

def walk (fuel : Nat) (index : ClassIndex) (settled : List String) (start : ClassDecl) :
    Metered (List ClassDecl) :=
  fun log => (travel index.parent? (guard settled) fuel [] (some start)).map fun trip =>
    (outcome trip,log)

section

variable (fuel : Nat) (index : ClassIndex)

def checkCycles : List String → List ClassDecl → Metered Unit
  | _, [] => return ()
  | settled, c :: rest => do
    let path ← walk fuel index settled c
    checkCycles (path.map (·.name) ++ settled) rest

def checkShape (classes : List ClassDecl) : Metered Unit := do
  checkCycles fuel index [] classes
  MonadExcept.ofExcept (Hierarchy.checkRoots classes)

def findMethod? (c : ClassDecl) (name : String) : Metered (Option MethodDecl) := do
  return (← search fuel index (·.method? name) (some c)).answer?

def isBelow (sub sup : String) : Metered Bool := do
  let trip ← search fuel index (fun c => if c.name == sup then some () else none) index[sub]?
  return trip.answer?.isSome

def assignable (value target : Tag) : Metered Bool :=
  if value = target then return true
  else match value, target with
    | _, .variant => return true
    | .int, .float => return true
    | .object _, .object none => return true
    | .object (some sub), .object (some sup) => isBelow fuel index sub sup
    | _, _ => return false

def getterFault? (p : PropertyDecl) (getter : MethodDecl) : Metered (Option String) :=
  if getter.params ≠ [] then return some s!"getter takes {getter.params.length} argument(s)"
  else if getter.returns = .variant then return none
  else do
    if ← assignable fuel index getter.returns p.tag then return none
    return some s!"getter returns {getter.returns.text}, property is {p.tag.text}"

def setterFault? (p : PropertyDecl) (setter : MethodDecl) : Metered (Option String) :=
  match setter.params with
  | [param] => do
    if ← assignable fuel index p.tag param then return none
    return some s!"setter takes {param.text}, property is {p.tag.text}"
  | params => return some s!"setter takes {params.length} argument(s), expected 1"

def checkAccessor (c : ClassDecl) (p : PropertyDecl) (accessor : String)
    (fault? : MethodDecl → Metered (Option String)) : Metered Unit := do
  match ← findMethod? fuel index c accessor with
  | none => throw (.unresolvedAccessor c.name p.name accessor)
  | some m =>
    match ← fault? m with
    | none => return ()
    | some reason => throw (.accessorSignature c.name p.name accessor reason)

def checkProperty (c : ClassDecl) (p : PropertyDecl) : Metered Unit := do
  MonadExcept.ofExcept (Members.checkValueTag index (c.context p.name) p.tag)
  checkAccessor fuel index c p p.getter (getterFault? fuel index p)
  match p.setter with
  | none => return ()
  | some setter => checkAccessor fuel index c p setter (setterFault? fuel index p)

def checkClass (c : ClassDecl) : Metered Unit := do
  MonadExcept.ofExcept (Members.checkMethods index c [] c.methods)
  c.properties.values.forM (checkProperty fuel index c)

def place (placed : List ClassDecl) (c : ClassDecl) : Metered (List ClassDecl) := do
  let known (a : ClassDecl) := if placed.any (·.name == a.name) then some () else none
  return (← search fuel index known (some c)).passed.reverse ++ placed

def order (classes : List ClassDecl) : Metered (List ClassDecl) := do
  return (← classes.foldlM (place fuel index) []).reverse

end

def validate (fuel : Nat) (classes : List ClassDecl) : Metered ClassIndex := do
  let index ← MonadExcept.ofExcept (Names.indexFrom ∅ classes)
  MonadExcept.ofExcept (Names.checkSingletons index classes)
  MonadExcept.ofExcept (Hierarchy.checkParents index classes)
  checkShape fuel index classes
  classes.forM (checkClass fuel index)
  return index

def load (fuel : Nat) (classes : List ClassDecl) (constants : NameMap Int64) : Metered Database :=
  if classes.isEmpty then throw .empty
  else do
    let index ← validate fuel classes
    let ordered ← order fuel index classes
    if nonempty : ordered ≠ [] then return { classes := ordered, constants, nonempty }
    else throw .empty

def ancestors (fuel : Nat) (db : Database) (name : String) : Metered (List ClassDecl) := do
  return (← search fuel db.index (fun _ => (none : Option Unit)) (db.get? name)).passed.reverse

/-- A metered run ends with the result, and each walk that it writes down is fine. -/
def Yields (fine : List ClassDecl → Prop) (run : Metered α) (result : Except LoadError α) : Prop :=
  ∀ log, ∃ new, run.run.run log = some (result,log ++ new) ∧ ∀ visited ∈ new, fine visited

namespace Yields

variable {fine : List ClassDecl → Prop}

theorem pure {a : α} : Yields fine (pure a) (.ok a) := fun log => ⟨[],by simp,by simp⟩

theorem throw {e : LoadError} : Yields fine (throw e : Metered α) (.error e) :=
  fun log => ⟨[],by simp,by simp⟩

theorem ofExcept {result : Except LoadError α} :
    Yields fine (MonadExcept.ofExcept result) result := by
  cases result with
  | error e => exact throw
  | ok a => exact pure

/-- One run after another; the second may rely on what the first came to. -/
theorem bind {run : Metered α} {next : α → Metered β} {first : Except LoadError α}
    {g : α → Except LoadError β} (yields : Yields fine run first)
    (rest : ∀ a, first = .ok a → Yields fine (next a) (g a)) :
    Yields fine (run >>= next) (first >>= g) := by
  intro log
  obtain ⟨new,ends,walks⟩ := yields log
  cases first with
  | error e =>
    refine ⟨new,?_,walks⟩
    rw [ExceptT.run_bind,StateT.run_bind,ends]
    rfl
  | ok a =>
    obtain ⟨more,after,others⟩ := rest a rfl (log ++ new)
    refine ⟨new ++ more,?_,?_⟩
    · rw [ExceptT.run_bind,StateT.run_bind,ends,← List.append_assoc]
      exact after
    · intro visited member
      exact (List.mem_append.mp member).elim (walks visited) (others visited)

variable {run : Metered α} {next : α → Metered β}

/-- A run whose value is known hands it on. -/
theorem step {a : α} {result : Except LoadError β} (yields : Yields fine run (.ok a))
    (rest : Yields fine (next a) result) : Yields fine (run >>= next) result :=
  yields.bind (g := fun _ => result) fun _ same => Except.ok.inj same ▸ rest

theorem fail {e : LoadError} (yields : Yields fine run (.error e)) :
    Yields fine (run >>= next) (.error e) :=
  yields.bind (g := fun _ => .error e) nofun

theorem forM {each : α → Metered Unit} {one : α → Except LoadError Unit}
    {all : List α → Except LoadError Unit} (nil : all [] = .ok ())
    (cons : ∀ a l, all (a :: l) = one a >>= fun _ => all l) {l : List α}
    (yields : ∀ a ∈ l, Yields fine (each a) (one a)) : Yields fine (l.forM each) (all l) := by
  induction l with
  | nil => exact nil ▸ pure
  | cons a l ih =>
    rw [cons]
    exact (yields a List.mem_cons_self).bind fun _ _ =>
      ih fun b mb => yields b (List.mem_cons_of_mem a mb)

end Yields
end Metered
end ObjectBridge
