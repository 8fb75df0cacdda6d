import ObjectBridge.Proofs.Cache.Traffic

/-! The bridge's own wraps are traffic, so that what holds in every order of visits holds of
them. -/
namespace ObjectBridge
namespace Context

/-- The engine's reply to the question for a class, and the engine after it. -/
def reply (ctx : Context σ) (h : Handle) (native : σ) : Except ChannelError String × σ :=
  match ctx.channel.classNameOf h native with
  | .ok cls native => (.ok cls, native)
  | .error e native => (.error e, native)

/-- What a wrap without a live wrapper does. -/
theorem enter_eq (ctx : Context σ) (h : Handle) (world : World σ) :
    ctx.enter h world =
      match ctx.typeFor (ctx.reply h world.native).1 with
      | .ok type => .ok (world.cache.enter h type).1
          ⟨(ctx.reply h world.native).2,(world.cache.enter h type).2⟩
      | .error e => .error e ⟨(ctx.reply h world.native).2,world.cache⟩ := by
  unfold enter typeOf reply
  cases asked : ctx.channel.classNameOf h world.native with
  | error e native => simp [BridgeM.native,asked,typeFor,bind,EStateM.bind]
  | ok cls native =>
    cases resolved : ctx.resolve cls with
    | error e =>
      simp only [BridgeM.native,asked,typeFor,resolved,BridgeM.ofExcept,bind,EStateM.bind]
      rfl
    | ok type =>
      simp [BridgeM.native,asked,typeFor,resolved,BridgeM.ofExcept,BridgeM.cached,bind,
        EStateM.bind,pure,EStateM.pure]

theorem wrap_live {ctx : Context σ} {h : Handle} {w : Wrapper} {world : World σ}
    (live : world.cache.live? h = some w) :
    ctx.wrap h world = .ok w ⟨world.native,world.cache.retain w⟩ := by
  simp [wrap,lookup,BridgeM.cached,Cache.lookup,live,bind,EStateM.bind,pure,EStateM.pure]

theorem wrap_new {ctx : Context σ} {h : Handle} {world : World σ}
    (free : world.cache.live? h = none) : ctx.wrap h world = ctx.enter h world := by
  simp [wrap,lookup,BridgeM.cached,Cache.lookup,free,bind,EStateM.bind]

end Context
namespace Cache.Traffic
variable {ctx : Context σ} {s : Traffic} {h : Handle} {w : Wrapper}

theorem next_reply {class? : Except ChannelError String} {type : TypeInfo}
    (waiting : h ∈ s.asking) (told : ctx.typeFor class? = .ok type) :
    s.next ctx (.reply h class?) = { s with
      cache := (s.cache.allocate h type).2
      asking := s.asking.erase h
      entering := (s.cache.allocate h type).1 :: s.entering } := by
  simp [next,advance,waiting,told]

/-- What a wrap does once its question was answered is a piece of traffic. -/
theorem enter_is_traffic (valid : s.Valid) (waiting : h ∈ s.asking)
    {class? : Except ChannelError String} {type : TypeInfo}
    (told : ctx.typeFor class? = .ok type) :
    ∃ steps, s.after ctx steps = { s with
      cache := (s.cache.enter h type).2
      held := (s.cache.enter h type).1 :: s.held
      asking := s.asking.erase h } := by
  have first := next_reply waiting told
  cases live : (s.cache.allocate h type).2.live? h with
  | none =>
    refine ⟨[.reply h class?,.publish (s.cache.allocate h type).1],?_⟩
    rw [after_cons,first,enter_free live]
    have published := publish_free (w := (s.cache.allocate h type).1) live
    simp [next,advance,published,live]
  | some winner =>
    have entry := (live?_eq_some.mp live).1
    have below := valid.bounded winner (.inr (.inr ⟨h,entry⟩))
    have other : winner.identical (s.cache.allocate h type).1 = false := by
      simpa [Wrapper.identical,allocate] using Nat.ne_of_lt below
    refine ⟨[.reply h class?,.publish (s.cache.allocate h type).1,
      .destroy (s.cache.allocate h type).1],?_⟩
    rw [after_cons,first,enter_lost live other]
    have published := publish_live (w := (s.cache.allocate h type).1) live
    simp [next,advance,published,letGo,live,dead_after_loss other]

/-- The bridge's wrap is a piece of traffic: it hands out one reference, or none if it fails. -/
theorem wrap_is_traffic (ctx : Context σ) (valid : s.Valid) (native : σ) (h : Handle) :
    ∃ steps, match ctx.wrap h ⟨native,s.cache⟩ with
      | .ok w world => s.after ctx steps = { s with cache := world.cache, held := w :: s.held }
      | .error _ world => s.after ctx steps = { s with cache := world.cache } := by
  cases live : s.cache.live? h with
  | some w =>
    refine ⟨[.wrap h],?_⟩
    rw [Context.wrap_live live]
    simp [lookup,live,next,advance]
  | none =>
    have asked : s.next ctx (.wrap h) = { s with asking := h :: s.asking } := by
      simp [next,advance,lookup,live]
    have validAsked := asked ▸ next_valid ctx s (.wrap h) valid
    rw [Context.wrap_new live,Context.enter_eq]
    cases told : ctx.typeFor (ctx.reply h native).1 with
    | error e =>
      refine ⟨[.wrap h,.reply h (ctx.reply h native).1],?_⟩
      rw [after_cons,asked]
      simp [next,advance,told]
    | ok type =>
      obtain ⟨steps,run⟩ := enter_is_traffic validAsked List.mem_cons_self told
      refine ⟨.wrap h :: steps,?_⟩
      rw [after_cons,asked,run]
      simp

end Cache.Traffic
end ObjectBridge
