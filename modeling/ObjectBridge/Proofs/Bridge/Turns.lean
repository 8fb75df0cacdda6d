import ObjectBridge.Proofs.Bridge.Requests
import ObjectBridge.Proofs.Bridge.Start
import ObjectBridge.Proofs.Cache.Visits
import ObjectBridge.Proofs.Engine.History

/-! Turns. A use of a bridge to an engine changes the engine first, by direct steps, and visits the
cache afterwards, while the engine stays as it is. So a handle is entered with the type of an
object that is alive when the use is over. -/
namespace ObjectBridge

open Cache (Visit Visits)

/-- The handle has a live object, whose class is taken for the type. -/
def Engine.Names (e : Engine) (l : Lattice) (options : Options) (h : Handle) (t : TypeInfo) :
    Prop :=
  ∃ o : EngineObject, e.objects[h]? = some o ∧
    (Engine.context l options).resolve o.cls = .ok t

/-- The engine moves by direct steps, then the cache is visited. -/
structure Turn (l : Lattice) (options : Options) (refs : List Wrapper) (world : World Engine)
    (more : List Wrapper) (after : World Engine) : Prop where
  native : ∃ history, world.native.Becomes history after.native
  visits : Visits (after.native.Names l options) ⟨refs,world.cache⟩ ⟨more,after.cache⟩

/-- How a use ends: with a reference more if it gives a wrapper, and with none if it fails. -/
def Concludes (l : Lattice) (options : Options) (refs : List Wrapper) (world : World Engine)
    (gives : α → Option Wrapper) : EStateM.Result BindError (World Engine) α → Prop
  | .ok a after => Turn l options refs world ((gives a).toList ++ refs) after
  | .error _ after => Turn l options refs world refs after

/-- The same where the engine stays as it is. A failure leaves the cache alone too. -/
def Quietly (l : Lattice) (options : Options) (refs : List Wrapper) (world : World Engine)
    (gives : α → Option Wrapper) : EStateM.Result BindError (World Engine) α → Prop
  | .ok a after => after.native = world.native ∧ Visits (world.native.Names l options)
      ⟨refs,world.cache⟩ ⟨(gives a).toList ++ refs,after.cache⟩
  | .error _ after => after = world

/-- The wrapper that comes with an attribute. -/
def Attribute.wrapper? : Attribute → Option Wrapper
  | .value v => v.object?
  | .signal _ => none
  | .method receiver _ => some receiver

variable {l : Lattice} {options : Options} {refs : List Wrapper} {world after : World Engine}
  {h : Handle}

theorem Turn.still : Turn l options refs world refs world := ⟨⟨[],.refl _⟩,.refl⟩

/-- What is done quietly after the engine moved. -/
theorem Quietly.concludes {gives : α → Option Wrapper} {native : Engine}
    {result : EStateM.Result BindError (World Engine) α}
    (quiet : Quietly l options refs ⟨native,world.cache⟩ gives result)
    (way : ∃ history, world.native.Becomes history native) :
    Concludes l options refs world gives result := by
  cases result with
  | ok a after =>
    obtain ⟨stays,visits⟩ := quiet
    exact ⟨stays ▸ way,stays ▸ visits⟩
  | error e after =>
    obtain rfl := quiet
    exact ⟨way,.refl⟩

namespace Engine

variable {e : Engine} {c : Cache}

theorem typeFor_reply {t : TypeInfo} :
    (context l options).typeFor ((context l options).reply h e).1 = .ok t ↔
      e.Names l options h t := by
  unfold Names
  cases found : (e.objects[h]? : Option EngineObject) with
  | none => simp [reply_dead found,Context.typeFor]
  | some o => simp [reply_live found,Context.typeFor]

/-- The first wrap of a live object allocates, if its class is taken for a type. -/
theorem wrap_first {o : EngineObject} (valid : c.Consistent refs []) (free : c.live? h = none)
    (there : e.objects[h]? = some o) : (context l options).wrap h ⟨e,c⟩ =
      match (context l options).resolve o.cls with
      | .error fault => .error fault ⟨e,c⟩
      | .ok t => .ok ⟨c.next,h,t⟩ ⟨e,(c.enter h t).2⟩ := by
  rw [Context.wrap_new free,Context.enter_eq,reply_live there]
  simp only [Context.typeFor]
  cases (context l options).resolve o.cls with
  | error fault => rfl
  | ok t =>
    have shape := Cache.enter_free ((valid.live?_allocate h t h).trans free)
    simp only [shape]
    rfl

theorem reply_same : ((context l options).reply h e).2 = e := by
  cases found : (e.objects[h]? : Option EngineObject) with
  | none => rw [reply_dead found]
  | some o => rw [reply_live found]

theorem enter_quietly (l : Lattice) (options : Options) (h : Handle) (world : World Engine)
    (refs : List Wrapper) :
    Quietly l options refs world some ((context l options).enter h world) := by
  rw [Context.enter_eq,reply_same]
  cases told : (context l options).typeFor ((context l options).reply h world.native).1 with
  | error fault => rfl
  | ok t => exact ⟨rfl,.single (.enter (typeFor_reply.mp told))⟩

theorem wrap_quietly (l : Lattice) (options : Options) (h : Handle) (world : World Engine)
    (refs : List Wrapper) :
    Quietly l options refs world some ((context l options).wrap h world) := by
  cases live : world.cache.live? h with
  | some w =>
    rw [Context.wrap_live live]
    exact ⟨rfl,.single (.retain (.inr ⟨h,live⟩))⟩
  | none =>
    rw [Context.wrap_new live]
    exact enter_quietly l options h world refs

/-- A plain value comes with no wrapper. -/
theorem plain_quietly {coercion : Coercion} {raw : Variant} {v : Value}
    (received : Crossing.receive coercion raw = .ok (.value v)) : v.object? = none := by
  cases v with
  | object w => exact absurd received (Crossing.receive_no_wrapper coercion raw w)
  | _ => rfl

theorem receive_quietly (l : Lattice) (options : Options) (coercion : Coercion) (raw : Variant)
    (world : World Engine) (refs : List Wrapper) :
    Quietly l options refs world (fun result => result.toOption.bind (·.object?))
      ((context l options).receive coercion raw world) := by
  unfold Context.receive
  cases received : Crossing.receive coercion raw with
  | error m => exact ⟨rfl,.refl⟩
  | ok r =>
    cases r with
    | value v =>
      refine ⟨rfl,?_⟩
      simp only [Except.toOption,Option.bind_some,plain_quietly received]
      exact .refl
    | object h =>
      have outcome := wrap_quietly l options h world refs
      simp only [bind,EStateM.bind]
      cases wrapped : (context l options).wrap h world with
      | ok w after =>
        rw [wrapped] at outcome
        exact outcome
      | error fault after =>
        rw [wrapped] at outcome
        exact outcome

theorem receiveResult_quietly (l : Lattice) (options : Options) (method : String)
    (coercion : Coercion) (raw : Variant) (world : World Engine) (refs : List Wrapper) :
    Quietly l options refs world (·.object?)
      ((context l options).receiveResult method coercion raw world) := by
  rw [Context.receiveResult_eq]
  cases received : Crossing.receive coercion raw with
  | error m => rfl
  | ok r =>
    cases r with
    | value v =>
      refine ⟨rfl,?_⟩
      simp only [plain_quietly received]
      exact .refl
    | object h =>
      have outcome := wrap_quietly l options h world refs
      dsimp only
      cases wrapped : (context l options).wrap h world with
      | ok w after =>
        rw [wrapped] at outcome
        exact outcome
      | error fault after =>
        rw [wrapped] at outcome
        exact outcome

end Engine

/-- An answer from the tables comes with no wrapper, and a method is bound to a receiver that one
refers to. -/
def Plan.Fair (refs : List Wrapper) : Plan → Prop
  | .answer a => a.wrapper? = none
  | .bind receiver _ => receiver ∈ refs
  | _ => True

/-- Carrying out a plan is a turn. -/
theorem Plan.run_concludes {plan : Plan} (fair : plan.Fair refs) :
    Concludes l options refs world (·.bind Attribute.wrapper?)
      (plan.run (Engine.context l options) world) := by
  cases plan with
  | refuse e => exact .still
  | answer a =>
    have none : a.wrapper? = none := fair
    refine ⟨⟨[],.refl _⟩,?_⟩
    simp only [Option.bind_some,none]
    exact .refl
  | bind receiver m => exact ⟨⟨[],.refl _⟩,.single (.retain (.inl fair))⟩
  | ask receiver method args returns =>
    have way := Engine.call_stepwise receiver method args world.native
    have own : (Engine.context l options).channel.call receiver method args world.native =
      Engine.call receiver method args world.native := rfl
    rw [run_ask,own]
    cases called : Engine.call receiver method args world.native with
    | error fault native =>
      simp only [Engine.left,called] at way
      exact ⟨way,.refl⟩
    | ok raw native =>
      simp only [Engine.left,called] at way
      cases returns with
      | none => exact ⟨way,.refl⟩
      | some coercion =>
        have outcome := (Engine.receiveResult_quietly l options method coercion raw
          ⟨native,world.cache⟩ refs).concludes way
        dsimp only
        cases received : (Engine.context l options).receiveResult method coercion raw
            ⟨native,world.cache⟩ with
        | error fault after =>
          rw [received] at outcome
          exact outcome
        | ok v after =>
          rw [received] at outcome
          exact outcome
  | create cls =>
    have way := Engine.instantiate_stepwise cls world.native
    have own : (Engine.context l options).channel.instantiate cls world.native =
      Engine.instantiate cls world.native := rfl
    rw [run_create,own]
    cases called : Engine.instantiate cls world.native with
    | error fault native =>
      simp only [Engine.left,called] at way
      exact ⟨way,.refl⟩
    | ok h native =>
      simp only [Engine.left,called] at way
      have outcome := (Engine.wrap_quietly l options h ⟨native,world.cache⟩ refs).concludes way
      dsimp only
      cases wrapped : (Engine.context l options).wrap h ⟨native,world.cache⟩ with
      | error fault after =>
        rw [wrapped] at outcome
        exact outcome
      | ok w after =>
        rw [wrapped] at outcome
        exact outcome

namespace Use

theorem plan_ofArgs_fair (l : Lattice) (strict : Bool) (receiver : Wrapper) (m : MethodBinding)
    (args : List Value) (refs : List Wrapper) :
    (Plan.ofArgs l strict receiver m args).Fair refs := by
  unfold Plan.ofArgs
  split <;> trivial

theorem plan_fair (use : Use) (held : ∀ w ∈ use.wrappers, w ∈ refs) (l : Lattice)
    (strict : Bool) : (use.plan l strict).Fair refs := by
  cases use with
  | call receiver name args =>
    simp only [plan]
    split
    · trivial
    · exact plan_ofArgs_fair ..
    · trivial
  | invoke receiver m args => exact plan_ofArgs_fair ..
  | read receiver name =>
    simp only [plan]
    split
    · trivial
    · trivial
    · rfl
    · rfl
    · exact held receiver (by simp [wrappers])
  | write receiver name value =>
    simp only [plan]
    split
    · trivial
    · unfold Plan.ofWrite
      split
      · trivial
      · split <;> trivial
    · trivial
  | instantiate cls =>
    simp only [plan]
    split
    · trivial
    · split <;> trivial

/-- With wrappers that one refers to, a use is a turn, and so is a run that it only passes on. -/
theorem concludes (use : Use) (held : ∀ w ∈ use.wrappers, w ∈ refs) {run : BridgeM Engine α}
    (f : α → Option Attribute)
    (same : use.run (Engine.context l options) = run >>= fun a => pure (f a)) :
    Concludes l options refs world (fun a => (f a).bind Attribute.wrapper?) (run world) := by
  have outcome : Concludes l options refs world (·.bind Attribute.wrapper?)
      (use.run (Engine.context l options) world) := by
    rw [run_eq]
    exact Plan.run_concludes (use.plan_fair held _ _)
  rw [same] at outcome
  simp only [bind,EStateM.bind] at outcome
  cases ran : run world with
  | ok a after =>
    rw [ran] at outcome
    exact outcome
  | error e after =>
    rw [ran] at outcome
    exact outcome

end Use
end ObjectBridge
