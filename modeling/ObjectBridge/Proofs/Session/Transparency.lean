import ObjectBridge.Proofs.Session.Runs

/-! Transparency. What a wrap shows of a live object is told by the class that the object was born
with, and it is the same whether the wrapper comes out of the cache or the engine is asked. The
cache makes a difference for objects that are gone, and only as long as it has a live wrapper. -/
namespace ObjectBridge
namespace Context

/-- What can be seen of a wrap: the handle and the type of the wrapper, or the error. -/
def shown : EStateM.Result BindError (World σ) Wrapper → Except BindError (Handle × TypeInfo)
  | .ok w _ => .ok (w.handle,w.type)
  | .error e _ => .error e

/-- What a class is taken for, as seen through a handle. -/
def view (ctx : Context σ) (h : Handle) (cls : String) : Except BindError (Handle × TypeInfo) :=
  (ctx.resolve cls).map fun t => (h,t)

end Context

/-- What an object of a class looks like: one of the class of the same name in the database, and if
there is none, one of the root or an error, as the policy says. -/
inductive Sight (db : Database) (l : Lattice) (options : Options) (h : Handle) (cls : String) :
    Except BindError (Handle × TypeInfo) → Prop where
  | known {c : ClassDecl} {t : TypeInfo} : db.get? cls = some c → l.get? cls = some t →
      t.decl = c → Sight db l options h cls (.ok (h,t))
  | root : db.get? cls = none → options.unknownClassFallback = .root → l.root.decl = db.root →
      Sight db l options h cls (.ok (h,l.root))
  | unknown : db.get? cls = none → options.unknownClassFallback = .error →
      Sight db l options h cls (.error (.unknownClass cls))

namespace Engine

variable {given : List ClassDecl} {constants : NameMap Int64} {db : Database} {options : Options}
  {l : Lattice} {e : Engine} {h : Handle} {c : Cache} {refs : List Wrapper}

theorem view_sight (loaded : Database.Loaded given constants db)
    (made : Lattice.Synthesized db options l) (h : Handle) (cls : String) :
    Sight db l options h cls ((context l options).view h cls) := by
  have own : (context l options).lattice = l := rfl
  have policy : (context l options).options = options := rfl
  have named := made.get?_decl loaded cls
  unfold Context.view Context.resolve
  rw [own,policy]
  cases known : l.get? cls with
  | some t =>
    rw [known] at named
    exact .known named.symm known rfl
  | none =>
    rw [known] at named
    cases fallback : options.unknownClassFallback with
    | root => exact .root named.symm fallback made.root_decl
    | error => exact .unknown named.symm fallback

/-- On a live object the cache makes no difference: it has a wrapper of the right type or none. -/
theorem shown_wrap {o : EngineObject} (valid : c.Consistent refs [])
    (there : e.objects[h]? = some o)
    (typed : ∀ w, c.live? h = some w → (context l options).resolve o.cls = .ok w.type) :
    Context.shown ((context l options).wrap h ⟨e,c⟩) = (context l options).view h o.cls := by
  unfold Context.view
  cases live : c.live? h with
  | some w =>
    rw [Context.wrap_live live,typed w live]
    have keyed := valid.keyed h w (Cache.live?_eq_some.mp live).1
    simp [Context.shown,Except.map,keyed]
  | none =>
    rw [wrap_first valid live there]
    cases (context l options).resolve o.cls <;> rfl

/-- An object that is gone can be wrapped only by the wrapper that it has. -/
theorem wrap_gone (world : World Engine) (gone : world.native.objects[h]? = none) :
    (context l options).wrap h world =
      match world.cache.live? h with
      | some w => .ok w ⟨world.native,world.cache.retain w⟩
      | none => .error (.nativeCall "class_name_of" (.destroyedObject h)) world := by
  cases live : world.cache.live? h with
  | some w => exact Context.wrap_live live
  | none => rw [Context.wrap_new live,Context.enter_eq,reply_dead gone]; rfl

end Engine

namespace Session

variable {given : List ClassDecl} {constants : NameMap Int64} {db : Database} {options : Options}
  {e : Engine} {l : Lattice} {b : Bridge Engine} {world : World Engine} {start s : Session}
  {steps : List Step} {past history : List Engine.Step} {v w : Wrapper}
  {births : List Engine.Birth}

/-- Nobody can tell what a session has in its cache. -/
structure Transparent (db : Database) (options : Options) (births : List Engine.Birth)
    (b : Bridge Engine) (start : Session) (steps : List Step) (s : Session) : Prop where
  /-- A live object was born once, and it is seen as what its class is taken for. -/
  live : ∀ (h : Handle) (o : EngineObject), s.world.native.objects[h]? = some o →
    (∀ cls, ⟨h,cls⟩ ∈ births ↔ cls = o.cls) ∧
    Sight db b.lattice options h o.cls (Context.shown (b.wrap h s.world)) ∧
    Context.shown (b.wrap h s.world) = Context.shown (b.wrap h ⟨s.world.native,{}⟩)
  /-- All wrappers of a handle that were ever handed out have one type. -/
  alike : ∀ v w, HandedOut b start steps v → HandedOut b start steps w → v.handle = w.handle →
    v.type = w.type
  /-- An object that is gone can be wrapped only by the wrapper that it has. -/
  gone : ∀ h : Handle, s.world.native.objects[h]? = none → b.wrap h s.world =
    match s.world.cache.live? h with
    | some w => .ok w ⟨s.world.native,s.world.cache.retain w⟩
    | none => .error (.nativeCall "class_name_of" (.destroyedObject h)) s.world
  /-- A wrap that fails changes nothing. -/
  failed : ∀ h fault after, b.wrap h s.world = .error fault after → after = s.world

/-- Genuine wrappers of one handle have one type, as the object is born once. -/
theorem Genuine.alike {native : Engine} (chronicle : Engine.Chronicle births native)
    (few : births.length < UInt64.size) (genuine : Genuine l options births v)
    (also : Genuine l options births w) (same : v.handle = w.handle) : v.type = w.type := by
  obtain ⟨cls,born,resolved⟩ := genuine
  obtain ⟨other,bornToo,resolvedToo⟩ := also
  obtain ⟨_,rfl⟩ := Engine.Birth.mk.inj (chronicle.unique few born bornToo same)
  exact Except.ok.inj (resolved.symm.trans resolvedToo)

/-- The live wrapper of a live object has the type that the class of the object is taken for. -/
theorem live_typed {refs : List Wrapper} (valid : s.world.cache.Consistent refs [])
    (all : (s.holding b []).All (Genuine l options births))
    (chronicle : Engine.Chronicle births s.world.native) (few : births.length < UInt64.size)
    {h : Handle} {o : EngineObject} (there : s.world.native.objects[h]? = some o)
    (live : s.world.cache.live? h = some w) :
    (Engine.context l options).resolve o.cls = .ok w.type := by
  have entry := (Cache.live?_eq_some.mp live).1
  obtain ⟨cls,born,resolved⟩ := all.entries h w entry
  rw [valid.keyed h w entry] at born
  rwa [← (chronicle.born_iff few there cls).mp born]

/-- As long as the engine has not come round its handles, the cache is transparent. -/
theorem cache_is_transparent (loaded : Database.ofClasses given constants = .ok db)
    (begun : ({} : Engine).Becomes past e)
    (started : Bridge.start db Engine.channel options e = .ok b world)
    (run : Run b { world } steps history s)
    (few : (({} : Engine).births (past ++ history)).length < UInt64.size) :
    Transparent db options (({} : Engine).births (past ++ history)) b { world } steps s := by
  have facts := Database.loaded_of_ok loaded
  obtain ⟨l,_,founded⟩ := Engine.founded facts started
  have own : b.lattice = l := congrArg Context.lattice founded.context
  have chronicle := run.chronicle founded begun
  obtain ⟨all,out⟩ := run.genuine founded begun
  have valid := (afterAll_owned founded steps).consistent
  rw [← run.state_eq] at valid
  constructor
  case live =>
    intro h o there
    have seen := Engine.shown_wrap (l := l) valid there fun w =>
      live_typed valid all chronicle few there
    -- without a cache the engine is asked, and it answers by the same class
    have bare : Context.shown ((Engine.context l options).wrap h ⟨s.world.native,{}⟩) =
        (Engine.context l options).view h o.cls :=
      Engine.shown_wrap .empty there (by simp [Cache.live?])
    rw [own,founded.context]
    exact ⟨chronicle.born_iff few there,seen ▸ Engine.view_sight facts founded.synthesized h o.cls,
      seen.trans bare.symm⟩
  case alike =>
    intro v w first second same
    exact (out v first).alike chronicle few (out w second) same
  case gone =>
    intro h gone
    rw [founded.context]
    exact Engine.wrap_gone s.world gone
  case failed =>
    intro h fault after failed
    have quiet := Engine.wrap_quietly l options h s.world []
    rw [← founded.context,failed] at quiet
    exact quiet

def cast : List ClassDecl :=
  [{ name := "Object" },{ name := "Actor", parent := some "Object", singleton := true }]

def opening : List Engine.Step := Engine.classSteps cast ++ Engine.singletonSteps cast

/-- A class that the database does not have comes to life. -/
def haunting : List Engine.Step := [.defineClass "Ghost" (some "Actor"),.create "Ghost"]

theorem ghost_seen_as_root : ∃ db b world s, Database.ofClasses cast ∅ = .ok db ∧
    Bridge.start db Engine.channel {} (Engine.ofHistory opening) = .ok b world ∧
    Run b { world } (haunting.map .engine) haunting s ∧
    Transparent db {} (({} : Engine).births (opening ++ haunting)) b { world }
      (haunting.map .engine) s ∧
    Context.shown (b.wrap ⟨2⟩ s.world) = .ok (⟨2⟩,b.lattice.root) := by
  obtain ⟨db,loaded⟩ : ∃ db, Database.ofClasses cast ∅ = .ok db := ⟨_,rfl⟩
  have computed : (match Database.ofClasses cast ∅ with
      | .error _ => none
      | .ok db =>
        match Bridge.start db Engine.channel {} (Engine.ofHistory opening) with
        | .error .. => none
        | .ok _ _ => (Engine.ofHistory (opening ++ haunting)).objects[(⟨2⟩ : Handle)]?.map
          fun o : EngineObject => (db.get? "Ghost",o.cls)) =
      some (none,"Ghost") := by decide +kernel
  rw [loaded] at computed
  dsimp only at computed
  split at computed
  · cases computed
  · rename_i b world started
    obtain ⟨o,there,same⟩ := Option.map_eq_some_iff.mp computed
    obtain ⟨strange,ghost⟩ := Prod.mk.inj same
    have begun : ({} : Engine).Becomes opening (Engine.ofHistory opening) :=
      ⟨by simp [opening,cast,Engine.classSteps,Engine.singletonSteps,Engine.Step.IsDirect],rfl⟩
    have run := Run.ofEngine b { world } haunting (by simp [haunting,Engine.Step.IsDirect])
    have few : (({} : Engine).births (opening ++ haunting)).length < UInt64.size := by
      decide +kernel
    have all := cache_is_transparent loaded begun started run few
    refine ⟨db,b,world,_,loaded,started,run,all,?_⟩
    obtain ⟨l,_,founded⟩ := Engine.founded (Database.loaded_of_ok loaded) started
    have native := (begun.trans (founded.native ▸ run.becomes)).result
    rw [Engine.ofHistory,native] at there
    obtain ⟨_,seen,_⟩ := all.live ⟨2⟩ o there
    rw [ghost] at seen
    generalize Context.shown _ = sight at seen ⊢
    cases seen with
    | known present => simp [strange] at present
    | root => rfl
    | unknown _ policy => cases policy

end Session
end ObjectBridge
