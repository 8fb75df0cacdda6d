import ObjectBridge.Proofs.Bridge.Requests
import ObjectBridge.Proofs.Crossing.Arguments

/-! Effects of uses on the channel. A refusal comes before any request; a use that is not refused
makes one call, and asks for a class only if the call leaves an object to be wrapped. -/
namespace ObjectBridge

/-- A call, and the question for the class of the object that it leaves to be wrapped, if any. -/
inductive Asks (call : Request) (unwrapped : Handle → Prop) : List Request → Prop where
  | once : (∀ g, ¬unwrapped g) → Asks call unwrapped [call]
  | again {g : Handle} : unwrapped g → Asks call unwrapped [call,.classNameOf g]

/-- The call gives an object that the tag lets through and that has no live wrapper. -/
structure Context.Leaves (ctx : Context σ) (world : World σ) (receiver : Handle) (method : String)
    (args : List Variant) (tag : Tag) (g : Handle) : Prop where
  given : ∃ native, ctx.channel.call receiver method args world.native = .ok (.object g) native
  holds : tag.HoldsObjects
  free : world.cache.live? g = none

/-- A use that comes to one call. If the call fails, or the question for a class does, so does the
use, with the same fault. -/
structure Use.Makes (ctx : Context σ) (use : Use) (world : World σ) (receiver : Handle)
    (method : String) (args : List Variant) (unwrapped : Handle → Prop) : Prop where
  asks : Asks (.call receiver method args) unwrapped (use.requests ctx world)
  failed : ∀ fault native,
    ctx.channel.call receiver method args world.native = .error fault native →
    use.run ctx world = .error (.nativeCall method fault) ⟨native,world.cache⟩
  unnamed : ∀ g native fault after, unwrapped g →
    ctx.channel.call receiver method args world.native = .ok (.object g) native →
    ctx.channel.classNameOf g native = .error fault after →
    use.run ctx world = .error (.nativeCall "class_name_of" fault) ⟨after,world.cache⟩

/-- A use that comes to a creation. The new object may have a live wrapper, of one that went before
it under its handle; if not, its class is asked for. -/
structure Use.Creates (ctx : Context σ) (use : Use) (world : World σ) (cls : String) : Prop where
  failed : ∀ fault native, ctx.channel.instantiate cls world.native = .error fault native →
    use.requests ctx world = [.instantiate cls] ∧
    use.run ctx world = .error (.nativeCall "instantiate" fault) ⟨native,world.cache⟩
  created : ∀ h native, ctx.channel.instantiate cls world.native = .ok h native →
    use.requests ctx world = .instantiate cls :: world.cache.unknown h
  unnamed : ∀ h native fault after, ctx.channel.instantiate cls world.native = .ok h native →
    world.cache.live? h = none → ctx.channel.classNameOf h native = .error fault after →
    use.run ctx world = .error (.nativeCall "class_name_of" fault) ⟨after,world.cache⟩

/-- A use that is refused asks nothing and changes nothing. -/
structure Use.Refused (ctx : Context σ) (use : Use) (world : World σ) (e : BindError) : Prop where
  run : use.run ctx world = .error e world
  requests : use.requests ctx world = []

/-- How the call of a method goes: the arguments are counted, then they cross one by one, and only
then the engine is called. -/
inductive Use.Calls (ctx : Context σ) (world : World σ) (receiver : Wrapper) (m : MethodBinding)
    (args : List Value) (use : Use) : Prop where
  | miscounted {fault : String} : args.length ≠ m.decl.params.length →
      use.Refused ctx world (.argumentType m.qualified none fault) →
      Calls ctx world receiver m args use
  | rejected {fault : Mismatch} {i : Nat} : args.length = m.decl.params.length →
      Crossing.Rejects ctx.lattice ctx.options.strictObjectArgs fault args m.params i →
      use.Refused ctx world (fault.argument m.qualified i) → Calls ctx world receiver m args use
  | made {raws : List Variant} : args.length = m.decl.params.length →
      Crossing.Marshals ctx.lattice ctx.options.strictObjectArgs args m.params raws →
      use.Makes ctx world receiver.handle m.decl.name raws
        (ctx.Leaves world receiver.handle m.decl.name raws m.decl.returns) →
      Calls ctx world receiver m args use

variable {ctx : Context σ} {world after : World σ} {use : Use} {receiver : Handle}
  {method : String} {args : List Variant} {e : BindError}

/-- A plan that is carried out is refused by nobody. -/
theorem Plan.refused {plan : Plan} (failed : plan.run ctx world = .error e after)
    (refusal : e.IsRefusal) : plan = .refuse e ∧ after = world := by
  cases plan with
  | refuse fault =>
    cases failed
    exact ⟨rfl,rfl⟩
  | answer a => cases failed
  | bind receiver m => cases failed
  | ask receiver method args returns =>
    rw [run_ask] at failed
    split at failed
    · cases failed
      exact refusal.elim
    · split at failed
      · cases failed
      · split at failed
        · cases failed
        · rename_i received
          cases failed
          exact absurd refusal (Context.receiveResult_error received)
  | create cls =>
    rw [run_create] at failed
    split at failed
    · cases failed
      exact refusal.elim
    · split at failed
      · cases failed
      · rename_i wrapped
        cases failed
        exact absurd refusal (Context.wrap_error wrapped)

namespace Use

theorem refused_of_plan
    (plan : use.plan ctx.lattice ctx.options.strictObjectArgs = .refuse e) :
    use.Refused ctx world e :=
  ⟨by rw [run_eq,plan]; rfl,by rw [requests_eq,plan]; rfl⟩

/-- A result is received in peace, or leaves an object to be wrapped. -/
theorem unreceived_cases {ids : NameMap ClassId} {tag : Tag} {coercion : Coercion}
    (coerced : Coercion.ofTag? ids tag = some coercion) {raw : Variant} {native : σ}
    (called : ctx.channel.call receiver method args world.native = .ok raw native) :
    (world.cache.unreceived coercion raw = [] ∧
      ∀ g, ¬ctx.Leaves world receiver method args tag g) ∨
    ∃ g, world.cache.unreceived coercion raw = [.classNameOf g] ∧
      ctx.Leaves world receiver method args tag g := by
  have same {g : Handle} (leaves : ctx.Leaves world receiver method args tag g) :
      Crossing.receive coercion raw = .ok (.object g) := by
    obtain ⟨_,given⟩ := leaves.given
    rw [called] at given
    cases given
    exact (Crossing.receive_eq_object coerced).mpr ⟨rfl,leaves.holds⟩
  unfold Cache.unreceived
  cases received : Crossing.receive coercion raw with
  | error m => exact .inl ⟨rfl,fun g leaves => by simp [same leaves] at received⟩
  | ok r =>
    cases r with
    | value v => exact .inl ⟨rfl,fun g leaves => by simp [same leaves] at received⟩
    | object h =>
      obtain ⟨rfl,holds⟩ := (Crossing.receive_eq_object coerced).mp received
      by_cases free : world.cache.live? h = none
      · exact .inr ⟨h,if_pos free,⟨native,called⟩,holds,free⟩
      · refine .inl ⟨if_neg free,?_⟩
        intro g leaves
        have object := same leaves
        rw [received] at object
        cases object
        exact free leaves.free

theorem makes_of_plan {ids : NameMap ClassId} {tag : Tag} {coercion : Coercion}
    (plan : use.plan ctx.lattice ctx.options.strictObjectArgs =
      .ask receiver method args (some coercion))
    (coerced : Coercion.ofTag? ids tag = some coercion) :
    use.Makes ctx world receiver method args (ctx.Leaves world receiver method args tag) := by
  constructor
  case asks =>
    rw [requests_eq,plan]
    cases called : ctx.channel.call receiver method args world.native with
    | error fault native =>
      simp only [Plan.asked,called]
      apply Asks.once
      rintro g ⟨⟨_,given⟩,_⟩
      rw [called] at given
      cases given
    | ok raw native =>
      simp only [Plan.asked,called]
      rcases unreceived_cases coerced called with ⟨nothing,none⟩ | ⟨g,one,leaves⟩
      · rw [nothing]
        exact .once none
      · rw [one]
        exact .again leaves
  case failed =>
    intro fault native called
    rw [run_eq,plan,Plan.run_ask,called]
  case unnamed =>
    intro g native fault after leaves called asked
    have received : Crossing.receive coercion (.object g) = .ok (.object g) :=
      (Crossing.receive_eq_object coerced).mpr ⟨rfl,leaves.holds⟩
    have free : (World.mk native world.cache).cache.live? g = none := leaves.free
    have replied : ctx.reply g native = (.error fault,after) := by
      rw [Context.reply,asked]
    rw [run_eq,plan,Plan.run_ask,called]
    simp only [Context.receiveResult_eq,received,Context.wrap_new free,Context.enter_eq,replied,
      Context.typeFor]

theorem makes_of_write
    (plan : use.plan ctx.lattice ctx.options.strictObjectArgs = .ask receiver method args none) :
    use.Makes ctx world receiver method args fun _ => False := by
  refine ⟨?_,?_,fun _ _ _ _ none => none.elim⟩
  · rw [requests_eq,plan]
    exact .once fun _ => id
  · intro fault native called
    rw [run_eq,plan,Plan.run_ask,called]

theorem calls {m : MethodBinding} {receiver : Wrapper} {args : List Value}
    {ids : NameMap ClassId}
    (plan : use.plan ctx.lattice ctx.options.strictObjectArgs =
      .ofArgs ctx.lattice ctx.options.strictObjectArgs receiver m args)
    (params : List.Forall₂ (fun tag c => Coercion.ofTag? ids tag = some c) m.decl.params m.params)
    (returns : Coercion.ofTag? ids m.decl.returns = some m.returns) :
    use.Calls ctx world receiver m args := by
  have outcome := Crossing.args_admits ctx.lattice ctx.options.strictObjectArgs m.qualified args
    m.params
  unfold Plan.ofArgs at plan
  generalize Crossing.args ctx.lattice ctx.options.strictObjectArgs m.qualified args m.params =
    result at outcome plan
  have count := params.length_eq
  cases outcome with
  | miscounted differs => exact .miscounted (count ▸ differs) (refused_of_plan plan)
  | rejected same rejects => exact .rejected (same.trans count.symm) rejects (refused_of_plan plan)
  | accepted all =>
    exact .made (all.length_eq.trans count.symm) all (makes_of_plan plan returns)

theorem creates_of_plan {cls : String}
    (plan : use.plan ctx.lattice ctx.options.strictObjectArgs = .create cls) :
    use.Creates ctx world cls := by
  constructor
  case failed =>
    intro fault native called
    refine ⟨?_,by rw [run_eq,plan,Plan.run_create,called]⟩
    rw [requests_eq,plan]
    simp [Plan.asked,called]
  case created =>
    intro h native called
    rw [requests_eq,plan]
    simp [Plan.asked,called]
  case unnamed =>
    intro h native fault after called unwrapped asked
    have free : (World.mk native world.cache).cache.live? h = none := unwrapped
    have replied : ctx.reply h native = (.error fault,after) := by
      rw [Context.reply,asked]
    rw [run_eq,plan,Plan.run_create,called]
    simp only [Context.wrap_new free,Context.enter_eq,replied,Context.typeFor]

/-- Whatever ends in a refusal is refused by the tables. -/
theorem refused (failed : use.run ctx world = .error e after) (refusal : e.IsRefusal) :
    use.Refused ctx world e := by
  rw [run_eq] at failed
  exact refused_of_plan (Plan.refused failed refusal).1

/-- The error of a call tells the place of an argument unless there were too many or too few. -/
theorem Calls.index_iff {receiver : Wrapper} {m : MethodBinding} {args : List Value}
    (calls : use.Calls ctx world receiver m args) {method fault : String} {index : Option Nat}
    (failed : use.run ctx world = .error (.argumentType method index fault) after) :
    index = none ↔ args.length ≠ m.decl.params.length := by
  have stopped := refused failed trivial
  cases calls with
  | miscounted differs also =>
    have same := also.run.symm.trans stopped.run
    cases same
    simpa using differs
  | rejected count _ also =>
    have same := also.run.symm.trans stopped.run
    cases same
    simpa using count
  | made _ _ makes =>
    have asks := makes.asks
    rw [stopped.requests] at asks
    cases asks

section

variable {db : Database} {receiver : Wrapper} {name : String}
  (made : Lattice.Synthesized db ctx.options ctx.lattice) (within : receiver.Within ctx.lattice)
include made within

theorem call_calls {m : MethodBinding} (known : receiver.type.member? name = some (.method m))
    (args : List Value) : (call receiver name args).Calls ctx world receiver m args := by
  obtain ⟨_,_,binds⟩ := Lattice.member_binds made within known
  cases binds with
  | method params returns => exact calls (by simp [plan,TypeInfo.member,known]) params returns

theorem read_makes {p : PropertyBinding} (known : receiver.type.member? name = some (.property p)) :
    (read receiver name).Makes ctx world receiver.handle p.decl.getter []
      (ctx.Leaves world receiver.handle p.decl.getter [] p.decl.tag) := by
  obtain ⟨_,_,binds⟩ := Lattice.member_binds made within known
  cases binds with
  | property coerced => exact makes_of_plan (by simp [plan,TypeInfo.member,known]) coerced

end

theorem write_outcome {receiver : Wrapper} {name setter : String} {p : PropertyBinding}
    (known : receiver.type.member? name = some (.property p))
    (writable : p.decl.setter = some setter) (value : Value) :
    match Crossing.toVariant ctx.lattice ctx.options.strictObjectArgs p.coercion value with
    | .error fault => (write receiver name value).Refused ctx world
        (fault.argument (p.owner ++ "." ++ setter) 0)
    | .ok raw => (write receiver name value).Makes ctx world receiver.handle setter [raw]
        fun _ => False := by
  have plan : (write receiver name value).plan ctx.lattice ctx.options.strictObjectArgs =
      .ofWrite ctx.lattice ctx.options.strictObjectArgs receiver p value := by
    simp [plan,TypeInfo.member,known]
  simp only [Plan.ofWrite,writable] at plan
  cases sent : Crossing.toVariant ctx.lattice ctx.options.strictObjectArgs p.coercion value with
  | error fault =>
    rw [sent] at plan
    exact refused_of_plan plan
  | ok raw =>
    rw [sent] at plan
    exact makes_of_write plan

theorem read_quiet {receiver : Wrapper} {name : String} {m : Member}
    (known : receiver.type.member? name = some m) (other : ∀ p, m ≠ .property p) :
    (read receiver name).requests ctx world = [] := by
  rw [requests_eq]
  cases m with
  | property p => exact absurd rfl (other p)
  | _ => simp [plan,TypeInfo.member,known,Plan.asked]

end Use

/-- What the uses of a name ask of the channel: the tables, the arguments and the class are checked
first, and what passes comes to one request. -/
structure ChecksFirst (db : Database) (ctx : Context σ) (world : World σ) (receiver : Wrapper)
    (name : String) : Prop where
  refused : ∀ (use : Use) e after, use.run ctx world = .error e after → e.IsRefusal →
    use.Refused ctx world e
  method : ∀ m, receiver.type.member? name = some (.method m) → ∀ args,
    (Use.call receiver name args).Calls ctx world receiver m args
  /-- Without an index it was the number of the arguments. -/
  count : ∀ m, receiver.type.member? name = some (.method m) → ∀ args method index fault after,
    (Use.call receiver name args).run ctx world =
      .error (.argumentType method index fault) after →
    (index = none ↔ args.length ≠ m.decl.params.length)
  property : ∀ p, receiver.type.member? name = some (.property p) →
    (Use.read receiver name).Makes ctx world receiver.handle p.decl.getter []
      (ctx.Leaves world receiver.handle p.decl.getter [] p.decl.tag)
  write : ∀ p setter, receiver.type.member? name = some (.property p) →
    p.decl.setter = some setter → ∀ value,
    match Crossing.toVariant ctx.lattice ctx.options.strictObjectArgs p.coercion value with
    | .error fault => (Use.write receiver name value).Refused ctx world
        (fault.argument (p.owner ++ "." ++ setter) 0)
    | .ok raw => (Use.write receiver name value).Makes ctx world receiver.handle setter [raw]
        fun _ => False
  other : ∀ m, receiver.type.member? name = some m → (∀ p, m ≠ .property p) →
    (Use.read receiver name).requests ctx world = []
  unknown : db.get? name = none → (Use.instantiate name).Refused ctx world (.unknownClass name)
  instantiate : ∀ c, db.get? name = some c → c.instantiable = true →
    (Use.instantiate name).Creates ctx world name

/-- Over every channel, in every state: a use of a wrapper that the tables refuse asks nothing, and
one that they let pass makes its one call, after which a class is asked for exactly if the call
gave an object that is let through and has no live wrapper. -/
theorem checks_come_first {given : List ClassDecl} {constants : NameMap Int64} {db : Database}
    (loaded : Database.ofClasses given constants = .ok db) (ctx : Context σ)
    (synthesized : Lattice.ofDatabase db ctx.options = .ok ctx.lattice) {receiver : Wrapper}
    (within : receiver.Within ctx.lattice) (world : World σ) (name : String) :
    ChecksFirst db ctx world receiver name := by
  have facts := Database.loaded_of_ok loaded
  have made := Lattice.synthesized_of_ok facts synthesized
  constructor
  case refused => exact fun use e after failed refusal => Use.refused failed refusal
  case method => exact fun m known args => Use.call_calls made within known args
  case count =>
    intro m known args method index fault after failed
    exact (Use.call_calls made within known args).index_iff failed
  case property => exact fun p known => Use.read_makes made within known
  case write => exact fun p setter known writable value => Use.write_outcome known writable value
  case other => exact fun m known other => Use.read_quiet known other
  case unknown =>
    intro missing
    have absent := made.get?_decl facts name
    rw [missing,Option.map_eq_none_iff] at absent
    exact Use.refused_of_plan (by simp [Use.plan,absent])
  case instantiate =>
    intro c declared allowed
    have present := made.get?_decl facts name
    rw [declared,Option.map_eq_some_iff] at present
    obtain ⟨t,known,rfl⟩ := present
    obtain ⟨named,_⟩ := made.get?_eq_some.mp known
    exact Use.creates_of_plan (by simp [Use.plan,known,allowed,named])

def dim : MethodDecl := { name := "dim", params := [.int], returns := .object (some "Lamp") }

def lamps : List ClassDecl := [{ name := "Lamp", methods := [dim] }]

/-- Every call gives the second lamp. -/
def lampChannel : Channel Unit :=
  ⟨fun _ _ _ => pure (.object ⟨2⟩),fun _ => pure "Lamp",fun _ => pure ⟨1⟩,fun _ => pure ⟨1⟩⟩

theorem dim_asks_for_class : ∃ db l t, Database.ofClasses lamps ∅ = .ok db ∧
    Lattice.ofDatabase db {} = .ok l ∧ l.get? "Lamp" = some t ∧
    let ctx : Context Unit := ⟨lampChannel,l,{}⟩
    let lamp : Wrapper := ⟨0,⟨1⟩,t⟩
    ChecksFirst db ctx ⟨(),{}⟩ lamp "dim" ∧
    (Use.call lamp "dim" [.int 3]).requests ctx ⟨(),{}⟩ =
      [.call ⟨1⟩ "dim" [.int 3],.classNameOf ⟨2⟩] := by
  obtain ⟨db,loaded⟩ : ∃ db, Database.ofClasses lamps ∅ = .ok db := ⟨_,rfl⟩
  obtain ⟨l,run,made⟩ := Lattice.ofDatabase_ok (Database.loaded_of_ok loaded) {}
  have computed : (Database.ofClasses lamps ∅ >>= fun db => Lattice.ofDatabase db {} >>= fun l =>
      .ok ((l.get? "Lamp").map fun t => t.member? "dim")) =
      .ok (some (some (.method ⟨"Lamp",dim,[.int],.object (some 0)⟩))) := rfl
  simp only [loaded,run,bind,Except.bind,Except.ok.injEq,Option.map_eq_some_iff] at computed
  obtain ⟨t,known,member⟩ := computed
  have within : (⟨0,⟨1⟩,t⟩ : Wrapper).Within l := (made.get?_eq_some.mp known).2
  have first := checks_come_first loaded ⟨lampChannel,l,{}⟩ run within ⟨(),{}⟩ "dim"
  refine ⟨db,l,t,loaded,run,known,first,?_⟩
  cases first.method _ member [.int 3] with
  | miscounted differs => exact absurd rfl differs
  | rejected _ rejects =>
    cases rejects with
    | here stopped => cases stopped
    | later _ rest => cases rest
  | made _ all makes =>
    cases all with
    | cons sent rest =>
      cases sent
      cases rest
      have asks := makes.asks
      generalize Use.requests _ _ _ = requests at asks ⊢
      cases asks with
      | once none => exact absurd ⟨⟨(),rfl⟩,.inr ⟨_,rfl⟩,by decide⟩ (none ⟨2⟩)
      | again leaves =>
        obtain ⟨_,given⟩ := leaves.given
        cases given
        rfl

end ObjectBridge
