import ObjectBridge.Bridge.Context
import ObjectBridge.Proofs.Cache.References

/-! Cache traffic: wraps, lookups, copies and drops of many clients in any order. A wrap lets go
of the cache while the engine is asked for a class, so that every step here is one visit to the
cache, and a destructor may run long after the last reference went. -/
namespace ObjectBridge

/-- The type of an object, given the engine's reply to the question for its class. -/
def Context.typeFor (ctx : Context σ) : Except ChannelError String → Except BindError TypeInfo
  | .ok cls => ctx.resolve cls
  | .error e => .error (.nativeCall "class_name_of" e)

namespace Cache

/-- A cache, the references to its wrappers and the calls that are under way. -/
structure Traffic where
  cache : Cache := {}
  /-- References in the hands of clients, one element for each. -/
  held : List Wrapper := []
  /-- The handles of wraps for which the engine was asked for a class. -/
  asking : List Handle := []
  /-- The new wrappers of wraps that were told the class. -/
  entering : List Wrapper := []
  /-- Allocations without references whose destructor has still to run. -/
  dying : List Wrapper := []

namespace Traffic

inductive Step where
  /-- The first lookup of a wrap, which ends the wrap if it finds a live wrapper. -/
  | wrap (h : Handle)
  /-- The engine replies to a wrap that asked for the class of a handle. -/
  | reply (h : Handle) (class? : Except ChannelError String)
  /-- A wrap enters its new wrapper, or gives way to a live one. -/
  | publish (fresh : Wrapper)
  | lookup (h : Handle)
  | copy (w : Wrapper)
  | drop (w : Wrapper)
  /-- The destructor of an allocation that lost its last reference. -/
  | destroy (w : Wrapper)
  | forget (h : Handle)
  | purge

/-- What a step tells its caller. -/
inductive Answer where
  | nothing
  | wrapper (w : Wrapper)
  | absent
  | failed (e : BindError)
  | forgotten (found : Bool)
  | purged (count : Nat)

/-- All references: those of clients and those of wraps that are under way. -/
def refs (s : Traffic) : List Wrapper := s.held ++ s.entering

/-- Give a reference up. The destructor of the last one does not run yet. -/
def letGo (s : Traffic) (w : Wrapper) : Traffic :=
  let cache := s.cache.decrement w
  { s with cache, dying := if cache.isAlive w then s.dying else w :: s.dying }

/-- One visit to the cache. What nobody can do, such as to drop a reference that nobody has,
leaves everything as it is. -/
def advance (ctx : Context σ) (s : Traffic) : Step → Answer × Traffic
  | .wrap h =>
    match s.cache.lookup h with
    | (some w, cache) => (.wrapper w, { s with cache, held := w :: s.held })
    | (none, cache) => (.nothing, { s with cache, asking := h :: s.asking })
  | .reply h class? =>
    if h ∈ s.asking then
      match ctx.typeFor class? with
      | .error e => (.failed e, { s with asking := s.asking.erase h })
      | .ok type =>
        let (fresh, cache) := s.cache.allocate h type
        (.nothing, { s with
          cache, asking := s.asking.erase h, entering := fresh :: s.entering })
    else (.nothing, s)
  | .publish fresh =>
    if fresh ∈ s.entering then
      let (w, cache) := s.cache.publish fresh
      let settled := { s with cache, held := w :: s.held, entering := s.entering.erase fresh }
      (.wrapper w, if (s.cache.live? fresh.handle).isSome then settled.letGo fresh else settled)
    else (.nothing, s)
  | .lookup h =>
    match s.cache.lookup h with
    | (some w, cache) => (.wrapper w, { s with cache, held := w :: s.held })
    | (none, cache) => (.absent, { s with cache })
  | .copy w =>
    if w ∈ s.held then (.nothing, { s with cache := s.cache.retain w, held := w :: s.held })
    else (.nothing, s)
  | .drop w =>
    if w ∈ s.held then (.nothing, { s with held := s.held.erase w }.letGo w)
    else (.nothing, s)
  | .destroy w =>
    if w ∈ s.dying then
      (.nothing, { s with cache := s.cache.clear w, dying := s.dying.erase w })
    else (.nothing, s)
  | .forget h =>
    let (found, cache) := s.cache.forget h
    (.forgotten found, { s with cache })
  | .purge =>
    let (count, cache) := s.cache.purge
    (.purged count, { s with cache })

def next (ctx : Context σ) (s : Traffic) (step : Step) : Traffic := (s.advance ctx step).2

def after (ctx : Context σ) (s : Traffic) (steps : List Step) : Traffic :=
  steps.foldl (next ctx) s

@[simp] theorem after_nil (ctx : Context σ) (s : Traffic) : s.after ctx [] = s := rfl

@[simp] theorem after_cons (ctx : Context σ) (s : Traffic) (step : Step) (steps : List Step) :
    s.after ctx (step :: steps) = (s.next ctx step).after ctx steps := rfl

/-- The handle that a wrap or a lookup is for, in the step that may answer it. -/
def Step.target? : Step → Option Handle
  | .wrap h | .lookup h => some h
  | .publish fresh => some fresh.handle
  | _ => none

/-- The step ends a wrap or a lookup of the handle with a wrapper. -/
def Returns (ctx : Context σ) (s : Traffic) (step : Step) (h : Handle) (w : Wrapper) : Prop :=
  step.target? = some h ∧ (s.advance ctx step).1 = .wrapper w

/-! The invariant -/

def Valid (s : Traffic) : Prop := s.cache.Consistent s.refs s.dying

theorem letGo_valid (s : Traffic) (w : Wrapper)
    (valid : s.cache.Consistent (w :: s.refs) s.dying) : (s.letGo w).Valid := valid.decrement

theorem known_of_live {c : Cache} {refs dying : List Wrapper} {h : Handle} {w : Wrapper}
    (live : c.live? h = some w) : c.Known refs dying w :=
  .inr (.inr ⟨h,(live?_eq_some.mp live).1⟩)

theorem reply_valid (ctx : Context σ) (s : Traffic) (h : Handle)
    (class? : Except ChannelError String) (valid : s.Valid) :
    (s.next ctx (.reply h class?)).Valid := by
  simp only [next,advance]
  split
  · split
    · exact valid
    · exact (valid.allocate h _).perm List.perm_middle.symm
  · exact valid

/-- Of a race only the winner is entered; the loser is left to its destructor. -/
theorem publish_valid (ctx : Context σ) (s : Traffic) (fresh : Wrapper) (valid : s.Valid) :
    (s.next ctx (.publish fresh)).Valid := by
  simp only [next,advance]
  split
  swap
  · exact valid
  rename_i waiting
  have moved : s.refs.Perm (fresh :: (s.held ++ s.entering.erase fresh)) :=
    ((List.perm_cons_erase waiting).append_left s.held).trans List.perm_middle
  cases live : s.cache.live? fresh.handle with
  | none =>
    rw [publish_free live]
    exact (valid.enter (List.mem_append_right s.held waiting)).perm moved
  | some winner =>
    rw [publish_live live]
    apply letGo_valid
    have taken := (valid.retain (known_of_live live)).perm (moved.cons winner)
    exact taken.perm (List.Perm.swap ..)

theorem drop_valid (ctx : Context σ) (s : Traffic) (w : Wrapper) (valid : s.Valid) :
    (s.next ctx (.drop w)).Valid := by
  simp only [next,advance]
  split
  · rename_i member
    apply letGo_valid
    exact valid.perm ((List.perm_cons_erase member).append_right s.entering)
  · exact valid

/-- Every step keeps the invariant. -/
theorem next_valid (ctx : Context σ) (s : Traffic) (step : Step) (valid : s.Valid) :
    (s.next ctx step).Valid := by
  cases step with
  | wrap h | lookup h =>
    simp only [next,advance,lookup]
    cases live : s.cache.live? h with
    | none => exact valid
    | some w => exact valid.retain (known_of_live live)
  | reply h class? => exact reply_valid ctx s h class? valid
  | publish fresh => exact publish_valid ctx s fresh valid
  | copy w =>
    simp only [next,advance]
    split
    · rename_i member
      exact valid.retain (.inl (List.mem_append_left s.entering member))
    · exact valid
  | drop w => exact drop_valid ctx s w valid
  | destroy w =>
    simp only [next,advance]
    split
    · exact valid.clear
    · exact valid
  | forget h => exact valid.forget h
  | purge => exact valid.purge

/-- Every run keeps it too, in whatever order its steps come. -/
theorem after_valid (ctx : Context σ) (s : Traffic) (steps : List Step) (valid : s.Valid) :
    (s.after ctx steps).Valid := by
  induction steps generalizing s with
  | nil => exact valid
  | cons step steps ih => exact ih _ (next_valid ctx s step valid)

theorem start_valid : ({} : Traffic).Valid := Consistent.empty

end Traffic
end Cache
end ObjectBridge
