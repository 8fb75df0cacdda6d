import ObjectBridge.Proofs.Bridge.Use
import ObjectBridge.Proofs.Cache.Wrapping
import ObjectBridge.Proofs.Crossing.Origin
import ObjectBridge.Proofs.Lattice.Chain

/-! Requests. A use that the tables refuse asks the channel for nothing; any other makes its one
request, and at most one more, for the class of an object in the answer that is not wrapped yet. -/
namespace ObjectBridge

/-! Records -/

/-- The same bridge over the channel with a record. -/
def Context.recorded (ctx : Context σ) : Context (σ × List Request) :=
  { channel := ctx.channel.recorded, lattice := ctx.lattice, options := ctx.options }

/-- The world with a record of what was asked so far, newest first. -/
def World.noting (world : World σ) (log : List Request) : World (σ × List Request) :=
  ⟨(world.native,log),world.cache⟩

/-- What a use asks of the channel, in order. -/
def Use.requests (ctx : Context σ) (use : Use) (world : World σ) : List Request :=
  match use.run ctx.recorded (world.noting []) with
  | .ok _ after | .error _ after => after.native.2.reverse

def noting (log : List Request) : EStateM.Result ε (World σ) α →
    EStateM.Result ε (World (σ × List Request)) α
  | .ok a world => .ok a (world.noting log)
  | .error e world => .error e (world.noting log)

/-- Recorded or not, the run ends alike, and what is noted is what was asked. -/
def Notes (asked : World σ → List Request) (run : BridgeM σ α)
    (recorded : BridgeM (σ × List Request) α) : Prop :=
  ∀ world log, recorded (world.noting log) = noting ((asked world).reverse ++ log) (run world)

namespace Notes

variable {asked : World σ → List Request} {run : BridgeM σ α}
  {recorded : BridgeM (σ × List Request) α}

theorem pure (a : α) :
    Notes (fun _ => []) (pure a : BridgeM σ α) (pure a : BridgeM (σ × List Request) α) :=
  fun _ _ => rfl

theorem throw (e : BindError) :
    Notes (fun _ => []) (throw e : BridgeM σ α) (throw e : BridgeM (σ × List Request) α) :=
  fun _ _ => rfl

theorem native (method : String) (request : Request) (run : ChannelM σ α) :
    Notes (fun _ => [request]) (BridgeM.native method run)
      (BridgeM.native method (Channel.noted request run)) := by
  intro world log
  simp only [BridgeM.native,Channel.noted,World.noting]
  cases run world.native <;> rfl

theorem cached (change : Cache → α × Cache) :
    Notes (fun _ => []) (BridgeM.cached change : BridgeM σ α) (BridgeM.cached change) :=
  fun _ _ => rfl

theorem bind {next : α → BridgeM σ β} {more : α → BridgeM (σ × List Request) β}
    {later : α → World σ → List Request} (first : Notes asked run recorded)
    (rest : ∀ a, Notes (later a) (next a) (more a)) :
    Notes (fun world => asked world ++
      match run world with
      | .ok a after => later a after
      | .error _ _ => []) (run >>= next) (recorded >>= more) := by
  intro world log
  have noted := first world log
  simp only [Bind.bind,EStateM.bind,noted]
  cases run world with
  | ok a after => simpa [noting] using rest a after ((asked world).reverse ++ log)
  | error e after => simp [noting]

theorem congr {more : World σ → List Request} (notes : Notes asked run recorded)
    (same : ∀ world, asked world = more world) : Notes more run recorded := by
  intro world log
  rw [notes world log,same world]

/-- Nothing more is asked when an answer is passed on or refused. -/
theorem quiet {next : α → BridgeM σ β} {more : α → BridgeM (σ × List Request) β}
    (first : Notes asked run recorded) (rest : ∀ a, Notes (fun _ => []) (next a) (more a)) :
    Notes asked (run >>= next) (recorded >>= more) := by
  refine (first.bind rest).congr ?_
  intro world
  cases run world <;> simp

end Notes

/-- A wrap asks for the class of an object that has no live wrapper. -/
def Cache.unknown (c : Cache) (h : Handle) : List Request :=
  if c.live? h = none then [.classNameOf h] else []

/-- What is asked to receive a raw result. -/
def Cache.unreceived (c : Cache) (coercion : Coercion) (raw : Variant) : List Request :=
  match Crossing.receive coercion raw with
  | .ok (.object h) => c.unknown h
  | _ => []

namespace Context

variable {ctx : Context σ} {world : World σ} {h : Handle} {e : BindError} {after : World σ}

theorem wrap_notes (ctx : Context σ) (h : Handle) :
    Notes (fun world => world.cache.unknown h) (ctx.wrap h) (ctx.recorded.wrap h) := by
  intro world log
  simp only [Cache.unknown]
  cases live : world.cache.live? h with
  | some w =>
    have recorded : (world.noting log).cache.live? h = some w := live
    rw [wrap_live live,wrap_live recorded]
    simp [noting,World.noting]
  | none =>
    have recorded : (world.noting log).cache.live? h = none := live
    rw [wrap_new live,wrap_new recorded,if_pos rfl]
    have asked : Notes (fun _ => [.classNameOf h]) (ctx.enter h) (ctx.recorded.enter h) := by
      refine .quiet (.quiet (.native "class_name_of" (.classNameOf h) _) ?_) fun t => .cached _
      intro cls
      have same : ctx.recorded.resolve cls = ctx.resolve cls := rfl
      rw [same]
      cases ctx.resolve cls with
      | ok t => exact .pure t
      | error e => exact .throw e
    exact asked world log

theorem receiveResult_notes (ctx : Context σ) (method : String) (coercion : Coercion)
    (raw : Variant) : Notes (fun world => world.cache.unreceived coercion raw)
      (ctx.receiveResult method coercion raw) (ctx.recorded.receiveResult method coercion raw) := by
  apply Notes.quiet
  · unfold receive Cache.unreceived
    cases Crossing.receive coercion raw with
    | error m => exact .pure _
    | ok received =>
      cases received with
      | value v => exact .pure _
      | object h => exact (wrap_notes ctx h).quiet fun w => .pure _
  · rintro (m | v)
    · exact .throw _
    · exact .pure v

end Context

namespace Plan

/-- What carrying out a plan asks of the channel. -/
def asked (ctx : Context σ) (world : World σ) : Plan → List Request
  | ask receiver method args returns => .call receiver method args ::
    match returns, ctx.channel.call receiver method args world.native with
    | some coercion, .ok raw _ => world.cache.unreceived coercion raw
    | _, _ => []
  | create cls => .instantiate cls ::
    match ctx.channel.instantiate cls world.native with
    | .ok h _ => world.cache.unknown h
    | .error _ _ => []
  | _ => []

theorem run_notes (ctx : Context σ) (plan : Plan) :
    Notes (fun world => plan.asked ctx world) (plan.run ctx) (plan.run ctx.recorded) := by
  cases plan with
  | refuse e => exact .throw e
  | answer a => exact .pure _
  | bind receiver m => exact (Notes.cached _).quiet fun _ => .pure _
  | ask receiver method args returns =>
    have called := Notes.native method (.call receiver method args)
      (ctx.channel.call receiver method args)
    cases returns with
    | none => exact (called.quiet fun _ => .pure none).congr fun _ => rfl
    | some coercion =>
      refine (called.bind fun raw =>
        (ctx.receiveResult_notes method coercion raw).quiet fun v => .pure _).congr ?_
      intro world
      simp only [asked,BridgeM.native]
      cases ctx.channel.call receiver method args world.native <;> rfl
  | create cls =>
    have made := Notes.native "instantiate" (.instantiate cls) (ctx.channel.instantiate cls)
    refine (made.bind fun h => (ctx.wrap_notes h).quiet fun w => .pure _).congr ?_
    intro world
    simp only [asked,BridgeM.native]
    cases ctx.channel.instantiate cls world.native <;> rfl

end Plan

namespace Use

/-- A record of a use changes nothing but itself, and it is decided by what the use comes to. -/
theorem run_notes (ctx : Context σ) (use : Use) :
    Notes (fun world => (use.plan ctx.lattice ctx.options.strictObjectArgs).asked ctx world)
      (use.run ctx) (use.run ctx.recorded) := by
  have shape : use.run ctx.recorded =
      (use.plan ctx.lattice ctx.options.strictObjectArgs).run ctx.recorded := run_eq _ use
  rw [shape,run_eq ctx use]
  exact Plan.run_notes ctx _

theorem requests_eq (ctx : Context σ) (use : Use) (world : World σ) : use.requests ctx world =
    (use.plan ctx.lattice ctx.options.strictObjectArgs).asked ctx world := by
  rw [requests,run_notes ctx use world []]
  cases use.run ctx world <;> simp [noting,World.noting]

end Use

/-! Refusals -/

/-- A refusal by names, tables or values, in which the engine has no part. -/
def BindError.IsRefusal : BindError → Prop
  | .nativeCall .. | .unknownClass _ => False
  | _ => True

namespace Context

variable {ctx : Context σ} {world after : World σ} {h : Handle} {e : BindError}

theorem typeFor_error {reply : Except ChannelError String} (failed : ctx.typeFor reply = .error e) :
    ¬e.IsRefusal := by
  cases reply with
  | error fault =>
    cases failed
    exact id
  | ok cls =>
    simp only [typeFor,resolve] at failed
    split at failed
    · cases failed
    · split at failed
      · cases failed
      · cases failed
        exact id

theorem wrap_error (failed : ctx.wrap h world = .error e after) : ¬e.IsRefusal := by
  cases live : world.cache.live? h with
  | some w =>
    rw [wrap_live live] at failed
    cases failed
  | none =>
    rw [wrap_new live,enter_eq] at failed
    split at failed
    · cases failed
    · rename_i told
      cases failed
      exact typeFor_error told

theorem receiveResult_eq (ctx : Context σ) (method : String) (coercion : Coercion) (raw : Variant)
    (world : World σ) : ctx.receiveResult method coercion raw world =
      match Crossing.receive coercion raw with
      | .error m => .error (m.result method) world
      | .ok (.value v) => .ok v world
      | .ok (.object h) =>
        match ctx.wrap h world with
        | .ok w after => .ok (.object w) after
        | .error e after => .error e after := by
  simp only [receiveResult,receive]
  cases Crossing.receive coercion raw with
  | error m => rfl
  | ok received =>
    cases received with
    | value v => rfl
    | object h =>
      simp only [bind,EStateM.bind]
      cases ctx.wrap h world <;> rfl

theorem receiveResult_error {method : String} {coercion : Coercion} {raw : Variant}
    (failed : ctx.receiveResult method coercion raw world = .error e after) : ¬e.IsRefusal := by
  rw [receiveResult_eq] at failed
  split at failed
  · rename_i m _
    cases failed
    cases m <;> exact id
  · cases failed
  · split at failed
    · cases failed
    · rename_i wrapped
      cases failed
      exact wrap_error wrapped

end Context
end ObjectBridge
