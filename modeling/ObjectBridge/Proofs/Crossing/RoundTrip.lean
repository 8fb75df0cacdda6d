import ObjectBridge.Proofs.Cache.Identity
import ObjectBridge.Proofs.Cache.Visits
import ObjectBridge.Proofs.Cache.Wrapping
import ObjectBridge.Proofs.Crossing.Echo

/-! Round trips. What is sent is received as the value that it was sent for, and what was received
is sent back and received again, unless its class is not the one that is wanted. -/
namespace ObjectBridge

namespace Crossing

variable {l : Lattice} {strict : Bool} {c : Coercion} {v : Value} {raw : Variant}

/-- The one reason to refuse what was received by the same coercion. A result may be an object of
any class, an argument may not. -/
def Refuses (strict : Bool) (c : Coercion) (v : Value) : Prop :=
  strict = true ∧ ∃ id w, c = .object (some id) ∧ v = .object w ∧ w.type.isSubtypeOf id = false

theorem accepts_iff {cls : Option ClassId} {w : Wrapper} :
    accepts strict cls w = true ↔ ¬Refuses strict (.object cls) (.object w) := by
  cases cls with
  | none => simp [accepts,Refuses]
  | some id => cases strict <;> simp [accepts,Refuses]

theorem exists_toVariant_iff (received : receive c raw = .ok (.ofValue v)) :
    (∃ raw, toVariant l strict c v = .ok raw) ↔ ¬Refuses strict c v := by
  simp only [toVariant_eq_ok]
  constructor
  · rintro ⟨raw,sent⟩ ⟨checked,id,w,rfl,rfl,other⟩
    cases sent with
    | object welcome => simp [accepts,checked,other] at welcome
  · intro welcome
    cases c with
    | any => exact ⟨_,.any⟩
    | object cls =>
      cases v with
      | nil => exact ⟨_,.nil⟩
      | object w => exact ⟨_,.object (accepts_iff.mpr welcome)⟩
      | _ => cases raw <;> cases received
    -- only values of its own kind come out of any other coercion
    | _ => cases v <;> cases raw <;> cases received <;> exact ⟨_,by constructor⟩

theorem echo_eq_self (received : receive c raw = .ok (.ofValue v)) : v.echo c = v := by
  cases v with
  | int i =>
    cases c with
    | float => cases raw <;> cases received
    | _ => rfl
  | _ => cases c <;> rfl

end Crossing

namespace Context

variable {ctx : Context σ} {s : Cache.Traffic} {native : σ} {after : World σ} {h : Handle}
  {w : Wrapper} {c : Coercion} {raw : Variant} {v : Value}

/-- The value is received and nothing changes but that there is one reference more to it. A record
of the channel has nothing new. -/
def ReceivesQuietly (ctx : Context σ) (cache : Cache) (c : Coercion) (raw : Variant) (v : Value) :
    Prop :=
  ∀ native, ctx.receive c raw ⟨native,cache⟩ = .ok (.ok v) ⟨native,cache.retainValue v⟩ ∧
    ∀ log, ctx.recorded.receive c raw ⟨(native,log),cache⟩ =
      .ok (.ok v) ⟨(native,log),cache.retainValue v⟩

theorem receives_quietly (ctx : Context σ) {cache : Cache}
    (received : Crossing.receive c raw = .ok (.ofValue v)) (registered : v.Registered cache) :
    ctx.ReceivesQuietly cache c raw v :=
  fun native => ⟨ctx.receive_ofValue ⟨native,cache⟩ received registered,
    fun log => ctx.recorded.receive_ofValue ⟨(native,log),cache⟩ received registered⟩

/-- A result is received as it comes, or its object is wrapped. -/
theorem receive_eq_ok {world : World σ} (run : ctx.receive c raw world = .ok (.ok v) after) :
    (Crossing.receive c raw = .ok (.value v) ∧ after = world) ∨
    ∃ h w, v = .object w ∧ Crossing.receive c raw = .ok (.object h) ∧
      ctx.wrap h world = .ok w after := by
  unfold receive at run
  cases received : Crossing.receive c raw with
  | error m =>
    rw [received] at run
    cases run
  | ok crossed =>
    rw [received] at run
    cases crossed with
    | value u =>
      cases run
      exact .inl ⟨rfl,rfl⟩
    | object h =>
      simp only [bind,EStateM.bind] at run
      cases wrapped : ctx.wrap h world with
      | error e later =>
        rw [wrapped] at run
        cases run
      | ok w later =>
        rw [wrapped] at run
        cases run
        exact .inr ⟨h,w,rfl,rfl,wrapped⟩

/-- Whoever asks for a handle gets a wrapper of it, to which it leads from then on. -/
theorem wrap_enters (valid : s.Valid) (run : ctx.wrap h ⟨native,s.cache⟩ = .ok w after) :
    w.handle = h ∧ after.cache.entries[h]? = some w := by
  cases live : s.cache.live? h with
  | some known =>
    rw [wrap_live live] at run
    cases run
    have entry := (Cache.live?_eq_some.mp live).1
    exact ⟨valid.keyed h w entry,entry⟩
  | none =>
    rw [wrap_new live,enter_eq] at run
    split at run
    · rename_i type _
      cases run
      rw [Cache.enter_free ((valid.live?_allocate h type h).trans live)]
      exact ⟨rfl,Std.ExtTreeMap.getElem?_insert_self⟩
    · cases run

end Context

namespace Cache.Traffic

variable {ctx : Context σ} {s : Traffic} {native : σ} {after : World σ} {c : Coercion}
  {raw : Variant} {v : Value} {between : List Step}

/-- The traffic when a value was received that a client holds now. -/
def receiving (s : Traffic) (v : Value) (cache : Cache) : Traffic :=
  { s with cache, held := v.object?.toList ++ s.held }

/-- The handle of an object leads to the wrapper that is the value. -/
def Holds (s : Traffic) (v : Value) : Prop := ∀ w, v = .object w → s.Entered w

/-- An object that the value is stays referred to all the time and its handle is not forgotten. -/
def Keeps (ctx : Context σ) (s : Traffic) (v : Value) (steps : List Step) : Prop :=
  ∀ w, v = .object w →
    (∀ part, part <+: steps → w ∈ (s.after ctx part).held) ∧ .forget w.handle ∉ steps

theorem keeps_nil (ctx : Context σ) (s : Traffic) (v : Value) (cache : Cache) :
    (s.receiving v cache).Keeps ctx v [] := by
  rintro w rfl
  refine ⟨?_,List.not_mem_nil⟩
  intro part start
  obtain rfl := List.prefix_nil.mp start
  exact List.mem_cons_self

/-- A value that is kept is registered, whatever else goes on. -/
theorem registered_after (valid : s.Valid) (holds : s.Holds v) (keeps : s.Keeps ctx v between) :
    v.Registered (s.after ctx between).cache := by
  intro w object
  obtain ⟨held,kept⟩ := keeps w object
  have later := after_valid ctx s between valid
  have referred := List.mem_append_left (s.after ctx between).entering (held between List.prefix_rfl)
  exact live?_eq_some.mpr ⟨entered_after valid (holds w object) between held kept,
    later.alive_of_mem referred⟩

/-- To receive a value is a piece of traffic that leaves the value to whoever asked for it. -/
theorem receive_holds (valid : s.Valid)
    (run : ctx.receive c raw ⟨native,s.cache⟩ = .ok (.ok v) after) :
    Crossing.receive c raw = .ok (.ofValue v) ∧
      (s.receiving v after.cache).Valid ∧ (s.receiving v after.cache).Holds v := by
  rcases Context.receive_eq_ok run with ⟨received,rfl⟩ | ⟨h,w,rfl,received,wrapped⟩
  · cases v with
    | object w => exact absurd received (Crossing.receive_no_wrapper c raw w)
    | _ => exact ⟨received,valid,nofun⟩
  · obtain ⟨rfl,entry⟩ := Context.wrap_enters valid wrapped
    obtain ⟨steps,traffic⟩ := wrap_is_traffic ctx valid native w.handle
    simp only [wrapped] at traffic
    have later := after_valid ctx s steps valid
    rw [traffic] at later
    refine ⟨received,later,?_⟩
    intro other same
    cases same
    exact entry

end Cache.Traffic

/-- What crosses by a coercion comes back. What is sent is received as the value it was sent for. What
was received is sent, but for an object of another class than a strict bridge wants, and while it is
kept it is received again. -/
structure ComesBack (ctx : Context σ) (s : Cache.Traffic) (strict : Bool) (c : Coercion) : Prop where
  sent : ∀ v raw, Crossing.toVariant ctx.lattice strict c v = .ok raw → v.Registered s.cache →
    ctx.ReceivesQuietly s.cache c raw (v.echo c)
  accepted : ∀ raw native v after, ctx.receive c raw ⟨native,s.cache⟩ = .ok (.ok v) after →
    ((∃ raw, Crossing.toVariant ctx.lattice strict c v = .ok raw) ↔ ¬Crossing.Refuses strict c v)
  again : ∀ raw native v after, ctx.receive c raw ⟨native,s.cache⟩ = .ok (.ok v) after →
    ∀ between, (s.receiving v after.cache).Keeps ctx v between →
      ∀ raw, Crossing.toVariant ctx.lattice strict c v = .ok raw →
        ctx.ReceivesQuietly ((s.receiving v after.cache).after ctx between).cache c raw v

/-- In every order of visits to the cache, by every coercion, strictly or not. -/
theorem crossings_come_back (ctx : Context σ) (steps : List Cache.Traffic.Step) (strict : Bool)
    (c : Coercion) : ComesBack ctx (Cache.Traffic.after ctx {} steps) strict c := by
  have valid := Cache.Traffic.after_valid ctx {} steps Cache.Traffic.start_valid
  have back {v : Value} {raw : Variant}
      (sent : Crossing.toVariant ctx.lattice strict c v = .ok raw) :
      Crossing.receive c raw = .ok (.ofValue (v.echo c)) :=
    Crossing.receive_of_sends (Crossing.toVariant_eq_ok.mp sent)
  constructor
  case sent =>
    intro v raw sent registered
    exact ctx.receives_quietly (back sent) registered.echo
  case accepted =>
    intro raw native v after run
    exact Crossing.exists_toVariant_iff (Cache.Traffic.receive_holds valid run).1
  case again =>
    intro raw native v after run between keeps raw sent
    obtain ⟨received,later,holds⟩ := Cache.Traffic.receive_holds valid run
    have echoed := back sent
    rw [Crossing.echo_eq_self received] at echoed
    exact ctx.receives_quietly echoed (Cache.Traffic.registered_after later holds keeps)

/-- An object is received by a class that it is not of, but not sent by it; by its own it returns. -/
theorem sole_object_returns :
    let s := Cache.Traffic.after Cache.Traffic.soleContext {} []
    let v := Value.object ⟨0,⟨1⟩,Cache.Traffic.soleType⟩
    let raw := Variant.object ⟨1⟩
    ∃ after, Cache.Traffic.soleContext.receive (.object (some 0)) raw ⟨(),s.cache⟩ =
        .ok (.ok v) after ∧
      Cache.Traffic.soleContext.receive (.object (some 1)) raw ⟨(),s.cache⟩ = .ok (.ok v) after ∧
      Cache.Traffic.soleContext.ReceivesQuietly (s.receiving v after.cache).cache
        (.object (some 0)) raw v ∧
      ¬∃ raw, Crossing.toVariant Cache.Traffic.soleContext.lattice true (.object (some 1)) v =
        .ok raw := by
  intro s v raw
  have own := crossings_come_back Cache.Traffic.soleContext [] true (.object (some 0))
  have other := crossings_come_back Cache.Traffic.soleContext [] true (.object (some 1))
  refine ⟨_,rfl,rfl,?_,?_⟩
  · exact own.again raw () v _ rfl [] (Cache.Traffic.keeps_nil _ s v _) raw rfl
  · rw [other.accepted raw () v _ rfl]
    exact not_not_intro ⟨rfl,1,_,rfl,rfl,rfl⟩

end ObjectBridge
