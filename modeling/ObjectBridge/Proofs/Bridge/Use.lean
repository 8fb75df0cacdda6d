import ObjectBridge.Bridge.Attribute

/-! Uses of bound objects. What a use comes to is decided by the tables before the engine is asked
anything: it is refused, answered at once, or turned into one request whose answer is received. -/
namespace ObjectBridge

/-- A use of a bound object or of a class. -/
inductive Use where
  | call (receiver : Wrapper) (name : String) (args : List Value)
  /-- Call a bound method. -/
  | invoke (receiver : Wrapper) (m : MethodBinding) (args : List Value)
  | read (receiver : Wrapper) (name : String)
  | write (receiver : Wrapper) (name : String) (value : Value)
  | instantiate (cls : String)

namespace Use

/-- What the bridge does for a use. A write has no answer. -/
def run (ctx : Context σ) : Use → BridgeM σ (Option Attribute)
  | call receiver name args => return some (.value (← ctx.callMember receiver name args))
  | invoke receiver m args => return some (.value (← ctx.invoke receiver m args))
  | read receiver name => return some (← ctx.getAttribute receiver name)
  | write receiver name value => do
    ctx.setAttribute receiver name value
    return none
  | instantiate cls => return some (.value (.object (← ctx.instantiate cls)))

/-- The wrappers that a use brings along. -/
def wrappers : Use → List Wrapper
  | call receiver _ args | invoke receiver _ args => receiver :: args.filterMap (·.object?)
  | read receiver _ => [receiver]
  | write receiver _ value => receiver :: value.object?.toList
  | instantiate _ => []

end Use

/-- What a use comes to. -/
inductive Plan where
  | refuse (e : BindError)
  | answer (a : Attribute)
  /-- Bind a method to a copy of its receiver. -/
  | bind (receiver : Wrapper) (m : MethodBinding)
  /-- Call a native method; its result is received by the coercion, or not at all. -/
  | ask (receiver : Handle) (method : String) (args : List Variant) (returns : Option Coercion)
  | create (cls : String)

namespace Plan

def run (ctx : Context σ) : Plan → BridgeM σ (Option Attribute)
  | refuse e => throw e
  | answer a => return some a
  | bind receiver m => do
    BridgeM.retain receiver
    return some (.method receiver m)
  | ask receiver method args returns => do
    let raw ← BridgeM.native method (ctx.channel.call receiver method args)
    match returns with
    | none => return none
    | some coercion => return some (.value (← ctx.receiveResult method coercion raw))
  | create cls => do
    let h ← BridgeM.native "instantiate" (ctx.channel.instantiate cls)
    return some (.value (.object (← ctx.wrap h)))

theorem run_ask (ctx : Context σ) (receiver : Handle) (method : String) (args : List Variant)
    (returns : Option Coercion) (world : World σ) :
    (ask receiver method args returns).run ctx world =
      match ctx.channel.call receiver method args world.native with
      | .error fault native => .error (.nativeCall method fault) ⟨native,world.cache⟩
      | .ok raw native =>
        match returns with
        | none => .ok none ⟨native,world.cache⟩
        | some coercion =>
          match ctx.receiveResult method coercion raw ⟨native,world.cache⟩ with
          | .ok v after => .ok (some (.value v)) after
          | .error e after => .error e after := by
  simp only [run,BridgeM.native,Bind.bind,EStateM.bind]
  cases ctx.channel.call receiver method args world.native with
  | error fault native => rfl
  | ok raw native =>
    cases returns with
    | none => rfl
    | some coercion =>
      simp only [EStateM.bind]
      cases ctx.receiveResult method coercion raw ⟨native,world.cache⟩ <;> rfl

theorem run_create (ctx : Context σ) (cls : String) (world : World σ) :
    (create cls).run ctx world =
      match ctx.channel.instantiate cls world.native with
      | .error fault native => .error (.nativeCall "instantiate" fault) ⟨native,world.cache⟩
      | .ok h native =>
        match ctx.wrap h ⟨native,world.cache⟩ with
        | .ok w after => .ok (some (.value (.object w))) after
        | .error e after => .error e after := by
  simp only [run,BridgeM.native,Bind.bind,EStateM.bind]
  cases ctx.channel.instantiate cls world.native with
  | error fault native => rfl
  | ok h native =>
    dsimp only
    cases ctx.wrap h ⟨native,world.cache⟩ <;> rfl

def ofArgs (l : Lattice) (strict : Bool) (receiver : Wrapper) (m : MethodBinding)
    (args : List Value) : Plan :=
  match Crossing.args l strict m.qualified args m.params with
  | .error e => refuse e
  | .ok raws => ask receiver.handle m.decl.name raws (some m.returns)

def ofWrite (l : Lattice) (strict : Bool) (receiver : Wrapper) (p : PropertyBinding)
    (value : Value) : Plan :=
  match p.decl.setter with
  | none => refuse (.immutableMember receiver.className p.decl.name)
  | some setter =>
    match Crossing.toVariant l strict p.coercion value with
    | .error m => refuse (m.argument (p.owner ++ "." ++ setter) 0)
    | .ok raw => ask receiver.handle setter [raw] none

end Plan

namespace Use

def plan (l : Lattice) (strict : Bool) : Use → Plan
  | call receiver name args =>
    match receiver.type.member name with
    | .error e => .refuse e
    | .ok (.method m) => .ofArgs l strict receiver m args
    | .ok _ => .refuse (.notCallable receiver.className name)
  | invoke receiver m args => .ofArgs l strict receiver m args
  | read receiver name =>
    match receiver.type.member name with
    | .error e => .refuse e
    | .ok (.property p) => .ask receiver.handle p.decl.getter [] (some p.coercion)
    | .ok (.constant _ _ i) => .answer (.value (.int i))
    | .ok (.signal _ name) => .answer (.signal name)
    | .ok (.method m) => .bind receiver m
  | write receiver name value =>
    match receiver.type.member name with
    | .error e => .refuse e
    | .ok (.property p) => .ofWrite l strict receiver p value
    | .ok _ => .refuse (.immutableMember receiver.className name)
  | instantiate cls =>
    match l.get? cls with
    | none => .refuse (.unknownClass cls)
    | some t =>
      if t.decl.instantiable then .create t.name else .refuse (.notInstantiable t.name)

variable {ctx : Context σ}

theorem invoke_eq (receiver : Wrapper) (m : MethodBinding) (args : List Value) :
    (do return some (.value (← ctx.invoke receiver m args)) : BridgeM σ (Option Attribute)) =
      (Plan.ofArgs ctx.lattice ctx.options.strictObjectArgs receiver m args).run ctx := by
  unfold Plan.ofArgs Context.invoke
  cases Crossing.args ctx.lattice ctx.options.strictObjectArgs m.qualified args m.params with
  | error e => rfl
  | ok raws => simp [BridgeM.ofExcept,Plan.run]

theorem write_eq (receiver : Wrapper) (p : PropertyBinding) (value : Value) :
    (do ctx.writeProperty receiver p value; return none : BridgeM σ (Option Attribute)) =
      (Plan.ofWrite ctx.lattice ctx.options.strictObjectArgs receiver p value).run ctx := by
  unfold Plan.ofWrite Context.writeProperty
  cases p.decl.setter with
  | none => rfl
  | some setter =>
    dsimp only
    cases Crossing.toVariant ctx.lattice ctx.options.strictObjectArgs p.coercion value with
    | error m => rfl
    | ok raw => simp [Plan.run]

/-- A use does what it comes to by the tables. -/
theorem run_eq (ctx : Context σ) (use : Use) :
    use.run ctx = (use.plan ctx.lattice ctx.options.strictObjectArgs).run ctx := by
  cases use with
  | call receiver name args =>
    simp only [run,plan,Context.callMember]
    cases receiver.type.member name with
    | error e => rfl
    | ok member =>
      cases member with
      | method m => exact invoke_eq receiver m args
      | _ => rfl
  | invoke receiver m args => exact invoke_eq receiver m args
  | read receiver name =>
    simp only [run,plan,Context.getAttribute]
    cases receiver.type.member name with
    | error e => rfl
    | ok member =>
      cases member with
      | property p => simp [BridgeM.ofExcept,Context.readProperty,Plan.run]
      | _ => rfl
  | write receiver name value =>
    simp only [run,plan,Context.setAttribute]
    cases receiver.type.member name with
    | error e => rfl
    | ok member =>
      cases member with
      | property p => exact write_eq receiver p value
      | _ => rfl
  | instantiate cls =>
    simp only [run,plan,Context.instantiate]
    cases ctx.lattice.get? cls with
    | none => rfl
    | some t =>
      dsimp only
      split
      · simp [Plan.run]
      · rfl

end Use

/-- A method that is read off a receiver is a member of its type. -/
theorem Context.getAttribute_bound {ctx : Context σ} {receiver r : Wrapper} {name : String}
    {m : MethodBinding} {world after : World σ}
    (read : ctx.getAttribute receiver name world = .ok (.method r m) after) :
    r.type.member? name = some (.method m) := by
  have ran : (Use.read receiver name).run ctx world = .ok (some (.method r m)) after := by
    simp only [Use.run,bind,EStateM.bind,read]
    rfl
  rw [Use.run_eq] at ran
  simp only [Use.plan,TypeInfo.member] at ran
  cases known : receiver.type.member? name with
  | none =>
    rw [known] at ran
    cases ran
  | some member =>
    rw [known] at ran
    cases member with
    | method own =>
      cases ran
      exact known
    | property p =>
      dsimp only at ran
      rw [Plan.run_ask] at ran
      split at ran
      · cases ran
      · dsimp only at ran
        split at ran
        · cases ran
        · cases ran
    | constant _ _ i => cases ran
    | signal _ name => cases ran

end ObjectBridge
