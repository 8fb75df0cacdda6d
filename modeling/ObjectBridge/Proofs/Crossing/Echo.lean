import ObjectBridge.Proofs.Bridge.Requests
import ObjectBridge.Proofs.Crossing.Accessors

/-! Echoes. What is sent for a value and received again by the same coercion is the value itself;
only an int that was widened to a float stays one. -/
namespace ObjectBridge

/-- A value as it comes back. -/
def Value.echo (c : Coercion) (v : Value) : Value :=
  match c, v with
  | .float, .int i => .float i.toFloat
  | _, v => v

/-- An object of which the value is a wrapper is still registered with it. -/
def Value.Registered (cache : Cache) (v : Value) : Prop :=
  ∀ w, v = .object w → cache.live? w.handle = some w

/-- One reference more to what the value refers to. -/
def Cache.retainValue (c : Cache) : Value → Cache
  | .object w => c.retain w
  | _ => c

/-- A value as it is received, its wrapper still to be found. -/
def Crossing.Received.ofValue : Value → Crossing.Received
  | .object w => .object w.handle
  | v => .value v

variable {strict : Bool} {c : Coercion} {v : Value} {raw : Variant}

theorem Crossing.receive_of_sends (sent : Sends strict c v raw) :
    receive c raw = .ok (.ofValue (v.echo c)) := by
  cases sent with
  | any => cases v <;> rfl
  | _ => rfl

theorem Value.Registered.echo {cache : Cache} (registered : v.Registered cache) :
    (v.echo c).Registered cache := by
  cases v with
  | int i => cases c <;> nofun
  | _ => cases c <;> exact registered

namespace Context

/-- A registered value is received as it is, and the engine is not asked for it. -/
theorem receive_ofValue (ctx : Context σ) (world : World σ)
    (received : Crossing.receive c raw = .ok (.ofValue v))
    (registered : v.Registered world.cache) :
    ctx.receive c raw world = .ok (.ok v) ⟨world.native,world.cache.retainValue v⟩ := by
  unfold receive
  rw [received]
  cases v with
  | object w =>
    simp only [Crossing.Received.ofValue,bind,EStateM.bind,wrap_live (registered w rfl)]
    rfl
  | _ => rfl

theorem receiveResult_ofValue (ctx : Context σ) (method : String) (world : World σ)
    (received : Crossing.receive c raw = .ok (.ofValue v))
    (registered : v.Registered world.cache) :
    ∃ cache, ctx.receiveResult method c raw world = .ok v ⟨world.native,cache⟩ := by
  refine ⟨world.cache.retainValue v,?_⟩
  simp only [receiveResult,bind,EStateM.bind,ctx.receive_ofValue world received registered]
  rfl

end Context
end ObjectBridge
