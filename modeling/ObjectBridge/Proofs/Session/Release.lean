import ObjectBridge.Proofs.Session.Runs

/-! Releases. Whatever a client does, and whether it succeeds or fails, the live wrappers are those
that somebody refers to. None stays when the last reference to it goes, and none goes before. -/
namespace ObjectBridge.Session

variable {given : List ClassDecl} {constants : NameMap Int64} {db : Database} {options : Options}
  {e : Engine} {l : Lattice} {b : Bridge Engine} {world : World Engine} {start : Session}
  {steps : List Step}

/-- After the steps no wrapper has leaked and none has gone early. -/
structure Accounted (b : Bridge Engine) (start : Session) (steps : List Step) : Prop where
  /-- The live wrapper of a handle is the one that a slot or a singleton refers to, of those that
  were allocated after the handle was last forgotten. -/
  live : ∀ h w, (start.afterAll b steps).world.cache.live? h = some w ↔
    w ∈ (start.afterAll b steps).refs b ∧ w.handle = h ∧ Recent b start steps h w.allocation
  /-- What is counted are the handles with such a wrapper. -/
  counted : ∃ handles : List Handle, handles.Nodup ∧
    (∀ h, h ∈ handles ↔ ∃ w ∈ (start.afterAll b steps).refs b,
      w.handle = h ∧ Recent b start steps h w.allocation) ∧
    (start.afterAll b steps).liveCount = handles.length
  /-- A singleton keeps its allocation as long as its handle is not forgotten. -/
  singletons : ∀ (name : String) (single : Singleton), b.singletons[name]? = some single →
    .forget single.wrapper.handle ∉ steps →
    (start.afterAll b steps).world.cache.live? single.wrapper.handle = some single.wrapper ∧
    ∃ t, b.wrap single.wrapper.handle (start.afterAll b steps).world = .ok single.wrapper t

/-- A handle that was never forgotten has recent allocations only. -/
theorem recent_of_not_forgotten {h : Handle} (never : .forget h ∉ steps) (n : Nat) :
    Recent b start steps h n := by
  intro part early
  exact absurd (early.subset (by simp)) never

theorem accounted (founded : Founded db options e l b world) (steps : List Step) :
    Accounted b { world } steps := by
  have owned := afterAll_owned founded steps
  refine ⟨fun h w => owned.live_iff,owned.liveCount_eq,?_⟩
  intro name single published never
  have referred := mem_refs_singleton b (afterAll b { world } steps) published
  have live := owned.live_of_mem referred (recent_of_not_forgotten never _)
  exact ⟨live,_,Context.wrap_live live⟩

/-- Nothing leaks and nothing goes early, in whatever way a loaded database is used. -/
theorem no_leak_nor_early_release (loaded : Database.ofClasses given constants = .ok db)
    (started : Bridge.start db Engine.channel options e = .ok b world) (steps : List Step) :
    Accounted b { world } steps := by
  obtain ⟨l,_,founded⟩ := Engine.founded (Database.loaded_of_ok loaded) started
  exact accounted founded steps

def stage : List ClassDecl :=
  [{ name := "Object" },{ name := "Input", parent := some "Object", singleton := true }]

/-- The object of the singleton is destroyed while a client holds it. -/
def curtain : List Step :=
  [.produce (.singleton "Input") (some "input"),.engine (.destroy ⟨1⟩),.drop "input",.purge]

theorem singleton_outlives_object : ∃ db b world, Database.ofClasses stage ∅ = .ok db ∧
    Bridge.start db Engine.channel {} (Engine.ofHistory
      (Engine.classSteps stage ++ Engine.singletonSteps stage)) = .ok b world ∧
    Accounted b { world } curtain ∧
    (afterAll b { world } curtain).world.native.isAlive ⟨1⟩ = false ∧
    ((afterAll b { world } curtain).world.cache.live? ⟨1⟩).isSome := by
  obtain ⟨db,loaded⟩ : ∃ db, Database.ofClasses stage ∅ = .ok db := ⟨_,rfl⟩
  have computed : (match Database.ofClasses stage ∅ with
      | .error _ => none
      | .ok db =>
        match Bridge.start db Engine.channel {} (Engine.ofHistory
            (Engine.classSteps stage ++ Engine.singletonSteps stage)) with
        | .error .. => none
        | .ok b world => ((b.singletons["Input"]? : Option Singleton).map fun single =>
          (single.wrapper.handle,(afterAll b { world } curtain).world.native.isAlive ⟨1⟩))) =
      some (⟨1⟩,false) := by decide +kernel
  rw [loaded] at computed
  dsimp only at computed
  split at computed
  · cases computed
  · rename_i b world started
    obtain ⟨single,published,same⟩ := Option.map_eq_some_iff.mp computed
    obtain ⟨own,dead⟩ := Prod.mk.inj same
    have all := no_leak_nor_early_release loaded started curtain
    obtain ⟨live,_⟩ := all.singletons "Input" single published (by rw [own]; simp [curtain])
    rw [own] at live
    exact ⟨db,b,world,loaded,started,all,dead,by rw [live]; rfl⟩

end ObjectBridge.Session
