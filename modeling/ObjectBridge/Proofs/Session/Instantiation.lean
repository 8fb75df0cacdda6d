import ObjectBridge.Proofs.Session.Runs

/-! Instantiation. An object is created before it is wrapped, so a wrap that failed would leave an
object behind that nobody can reach. It cannot fail: the handle is new and the class is the one that
was asked for. So an instantiation gives a new object and its wrapper, or it changes nothing. -/
namespace ObjectBridge

variable {ctx : Context σ} {e : Engine} {cls : String}

/-- What an instantiation comes to. -/
theorem Context.instantiate_eq (ctx : Context σ) (cls : String) (world : World σ) :
    ctx.instantiate cls world =
      match ctx.lattice.get? cls with
      | none => .error (.unknownClass cls) world
      | some t =>
        if t.decl.instantiable then
          match ctx.channel.instantiate t.name world.native with
          | .error fault native => .error (.nativeCall "instantiate" fault) ⟨native,world.cache⟩
          | .ok h native => ctx.wrap h ⟨native,world.cache⟩
        else .error (.notInstantiable t.name) world := by
  unfold instantiate
  cases ctx.lattice.get? cls with
  | none => rfl
  | some t =>
    dsimp only
    split
    · simp only [BridgeM.native,bind,EStateM.bind]
      cases ctx.channel.instantiate t.name world.native <;> rfl
    · rfl

/-- The class may be instantiated from outside: the database says so and the engine agrees. -/
structure Instantiable (db : Database) (e : Engine) (cls : String) : Prop where
  declared : ∃ c : ClassDecl, db.get? cls = some c ∧ c.instantiable = true
  defined : ∃ c : EngineClass, e.classes[cls]? = some c ∧ c.instantiable = true

namespace Engine

/-- An engine with one object more. -/
def withNew (e : Engine) (cls : String) : Engine :=
  { e with objects := e.objects.insert e.next ⟨cls,e.initialFields cls⟩, next := ⟨e.next.raw + 1⟩ }

theorem instantiate_allowed {c : EngineClass} (found : e.classes[cls]? = some c)
    (allowed : c.instantiable = true) : instantiate cls e = .ok e.next (e.withNew cls) := by
  have known : cls ∈ e.classes := by
    rw [Std.ExtTreeMap.mem_iff_isSome_getElem?,found,Option.isSome_some]
  simp only [instantiate,found,allowed,if_true,create,known]
  rfl

theorem instantiate_refused
    (refused : ¬∃ c : EngineClass, e.classes[cls]? = some c ∧ c.instantiable = true) :
    ∃ fault, instantiate cls e = .error fault e := by
  unfold instantiate
  cases found : (e.classes[cls]? : Option EngineClass) with
  | none => exact ⟨_,rfl⟩
  | some c =>
    have no : ¬c.instantiable = true := fun allowed => refused ⟨c,found,allowed⟩
    simp only [no]
    exact ⟨_,rfl⟩

variable {given : List ClassDecl} {constants : NameMap Int64} {db : Database} {l : Lattice}
  {options : Options} {h : Handle} {c : Cache} {refs : List Wrapper} {t : TypeInfo}

/-- If the next handle has no live wrapper, a new object gets one, and an instantiation is refused
before there is an object or not at all. -/
theorem instantiate_outcome (loaded : Database.Loaded given constants db)
    (made : Lattice.Synthesized db options l) (valid : c.Consistent refs [])
    (free : c.live? e.next = none) (cls : String) :
    match (context l options).instantiate cls ⟨e,c⟩ with
    | .ok w after => Instantiable db e cls ∧ ∃ t, l.get? cls = some t ∧ w = ⟨c.next,e.next,t⟩ ∧
      after = ⟨e.withNew cls,(c.enter e.next t).2⟩
    | .error _ after => ¬Instantiable db e cls ∧ after = ⟨e,c⟩ := by
  have lattice : (context l options).lattice = l := rfl
  have channel : (context l options).channel.instantiate = instantiate := rfl
  have named := made.get?_decl loaded cls
  rw [Context.instantiate_eq,lattice,channel]
  cases known : l.get? cls with
  | none =>
    rw [known] at named
    refine ⟨?_,rfl⟩
    rintro ⟨⟨k,listed,_⟩,_⟩
    rw [listed] at named
    cases named
  | some t =>
    rw [known] at named
    obtain ⟨rfl,_⟩ := made.get?_eq_some.mp known
    dsimp only
    by_cases declared : t.decl.instantiable = true
    · rw [if_pos declared]
      by_cases defined : ∃ k : EngineClass, e.classes[t.name]? = some k ∧ k.instantiable = true
      · obtain ⟨k,found,allowed⟩ := defined
        -- the new object has the class that was asked for, so nothing can go wrong with its wrap
        have there : (e.withNew t.name).objects[e.next]? = some ⟨t.name,e.initialFields t.name⟩ :=
          Std.ExtTreeMap.getElem?_insert_self
        have resolved : (context l options).resolve t.name = .ok t := by
          unfold Context.resolve
          rw [lattice,known]
        rw [instantiate_allowed found allowed]
        dsimp only
        rw [wrap_first valid free there,resolved]
        exact ⟨⟨⟨t.decl,named.symm,declared⟩,⟨k,found,allowed⟩⟩,t,rfl,rfl,rfl⟩
      · obtain ⟨fault,refused⟩ := instantiate_refused defined
        rw [refused]
        exact ⟨fun may => defined may.defined,rfl⟩
    · rw [if_neg declared]
      refine ⟨?_,rfl⟩
      rintro ⟨⟨k,listed,may⟩,_⟩
      rw [← Option.some.inj (named.trans listed)] at may
      exact declared may

end Engine

namespace Session

variable {given : List ClassDecl} {constants : NameMap Int64} {db : Database} {options : Options}
  {e : Engine} {l : Lattice} {b : Bridge Engine} {world : World Engine} {start s : Session}
  {steps : List Step} {past history : List Engine.Step} {births : List Engine.Birth}

/-- The world has one object more, with a wrapper that nobody had before. `births` are all objects
that there ever were. -/
structure Gained (b : Bridge Engine) (births : List Engine.Birth) (start : Session)
    (steps : List Step) (world : World Engine) (cls : String) (w : Wrapper)
    (after : World Engine) : Prop where
  native : after.native = world.native.withNew cls
  handle : w.handle = world.native.next
  count : after.native.objectCount = world.native.objectCount + 1
  unborn : ∀ birth ∈ births, birth.handle ≠ w.handle
  greater : births.length + 1 < UInt64.size → ∀ birth ∈ births, birth.handle.raw < w.handle.raw
  /-- The class is the one asked for, also where unknown classes count as the root. -/
  type : b.lattice.get? cls = some w.type ∧ w.className = cls
  unlike : ∀ v, HandedOut b start steps v → v.same w = false

/-- The handle that comes next has no live wrapper: wrappers stand for objects that were born. -/
theorem next_free {held : List Wrapper} (valid : s.world.cache.Consistent held [])
    (all : (s.holding b []).All (Genuine l options births))
    (unborn : ∀ birth ∈ births, birth.handle ≠ s.world.native.next) :
    s.world.cache.live? s.world.native.next = none := by
  cases live : s.world.cache.live? s.world.native.next with
  | none => rfl
  | some w =>
    have entry := (Cache.live?_eq_some.mp live).1
    obtain ⟨_,born,_⟩ := all.entries _ w entry
    exact absurd (valid.keyed _ w entry) (unborn _ born)

/-- An instantiation gives a new object if database and engine allow it, and otherwise it leaves
the engine and the cache as they are. -/
theorem instantiation_all_or_nothing (loaded : Database.ofClasses given constants = .ok db)
    (begun : ({} : Engine).Becomes past e)
    (started : Bridge.start db Engine.channel options e = .ok b world)
    (run : Run b { world } steps history s)
    (few : (({} : Engine).births (past ++ history)).length < UInt64.size) (cls : String) :
    match b.instantiate cls s.world with
    | .ok w after => Instantiable db s.world.native cls ∧
      Gained b (({} : Engine).births (past ++ history)) { world } steps s.world cls w after
    | .error _ after => ¬Instantiable db s.world.native cls ∧ after = s.world := by
  have facts := Database.loaded_of_ok loaded
  obtain ⟨l,_,founded⟩ := Engine.founded facts started
  have own : b.lattice = l := congrArg Context.lattice founded.context
  have chronicle := run.chronicle founded begun
  obtain ⟨all,out⟩ := run.genuine founded begun
  have owned := afterAll_owned founded steps
  rw [← run.state_eq] at owned
  have valid : s.world.cache.Consistent (s.holding b []).refs [] := owned.consistent
  have unborn (birth) (born : birth ∈ ({} : Engine).births (past ++ history)) :=
    chronicle.ne_next few born
  have outcome := Engine.instantiate_outcome facts founded.synthesized valid
    (next_free valid all unborn) cls
  have same : b.instantiate cls s.world =
      (Engine.context l options).instantiate cls ⟨s.world.native,s.world.cache⟩ := by
    rw [founded.context]
  rw [same]
  cases ran : (Engine.context l options).instantiate cls ⟨s.world.native,s.world.cache⟩ with
  | error fault after =>
    rw [ran] at outcome
    exact outcome
  | ok w after =>
    rw [ran] at outcome
    obtain ⟨may,t,known,rfl,rfl⟩ := outcome
    obtain ⟨named,_⟩ := founded.synthesized.get?_eq_some.mp known
    refine ⟨may,?_⟩
    constructor
    case native => rfl
    case handle => rfl
    case count =>
      have absent : ¬s.world.native.next ∈ s.world.native.objects := by
        intro member
        obtain ⟨o,there⟩ := Option.isSome_iff_exists.mp
          (Std.ExtTreeMap.mem_iff_isSome_getElem?.mp member)
        exact unborn _ (chronicle.known _ o there) rfl
      exact Std.ExtTreeMap.size_insert.trans (if_neg absent)
    case unborn => exact unborn
    case greater => exact fun more birth born => chronicle.lt_next more born
    case type =>
      rw [own]
      exact ⟨known,named⟩
    case unlike =>
      intro v handed
      obtain ⟨_,born,_⟩ := out v handed
      exact beq_false_of_ne (unborn _ born)

def workshop : List ClassDecl :=
  [{ name := "Object" },{ name := "Actor", parent := some "Object", singleton := true },
    { name := "Mask", parent := some "Object" }]

def fitting : List Engine.Step := Engine.classSteps workshop ++ Engine.singletonSteps workshop

/-- A mask is made and lost before the one that is instantiated. -/
def misfortune : List Engine.Step := [.create "Mask",.destroy ⟨2⟩]

theorem second_mask_is_new : ∃ db b world s w after, Database.ofClasses workshop ∅ = .ok db ∧
    Bridge.start db Engine.channel {} (Engine.ofHistory fitting) = .ok b world ∧
    Run b { world } (misfortune.map .engine) misfortune s ∧
    b.instantiate "Mask" s.world = .ok w after ∧
    Gained b (({} : Engine).births (fitting ++ misfortune)) { world } (misfortune.map .engine)
      s.world "Mask" w after ∧
    w.handle = ⟨3⟩ := by
  obtain ⟨db,loaded⟩ : ∃ db, Database.ofClasses workshop ∅ = .ok db := ⟨_,rfl⟩
  have computed : (match Database.ofClasses workshop ∅ with
      | .error _ => none
      | .ok db =>
        match Bridge.start db Engine.channel {} (Engine.ofHistory fitting) with
        | .error .. => none
        | .ok _ _ => some ((db.get? "Mask").map (·.instantiable),
          ((Engine.ofHistory (fitting ++ misfortune)).classes["Mask"]?.map
            fun c : EngineClass => c.instantiable),
          (Engine.ofHistory (fitting ++ misfortune)).next)) =
      some (some true,some true,⟨3⟩) := by decide +kernel
  rw [loaded] at computed
  dsimp only at computed
  split at computed
  · cases computed
  · rename_i b world started
    obtain ⟨declared,rest⟩ := Prod.mk.inj (Option.some.inj computed)
    obtain ⟨defined,next⟩ := Prod.mk.inj rest
    have begun : ({} : Engine).Becomes fitting (Engine.ofHistory fitting) :=
      ⟨by simp [fitting,workshop,Engine.classSteps,Engine.singletonSteps,Engine.Step.IsDirect],rfl⟩
    have run := Run.ofEngine b { world } misfortune (by simp [misfortune,Engine.Step.IsDirect])
    have few : (({} : Engine).births (fitting ++ misfortune)).length < UInt64.size := by
      decide +kernel
    have outcome := instantiation_all_or_nothing loaded begun started run few "Mask"
    obtain ⟨l,_,founded⟩ := Engine.founded (Database.loaded_of_ok loaded) started
    have native := (begun.trans (founded.native ▸ run.becomes)).result
    rw [Engine.ofHistory,native] at defined next
    cases made : b.instantiate "Mask" (afterAll b { world } (misfortune.map .engine)).world with
    | error fault after =>
      rw [made] at outcome
      exact absurd ⟨Option.map_eq_some_iff.mp declared,Option.map_eq_some_iff.mp defined⟩ outcome.1
    | ok w after =>
      rw [made] at outcome
      obtain ⟨_,gained⟩ := outcome
      exact ⟨db,b,world,_,w,after,loaded,started,run,made,gained,gained.handle.trans next⟩

end Session
end ObjectBridge
