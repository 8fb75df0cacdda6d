import ObjectBridge.Bridge
import ObjectBridge.Command
import ObjectBridge.Engine.Call
import ObjectBridge.Proofs.Cache.Wrapping
import ObjectBridge.Proofs.Lattice.Synthesis

/-! Starting. What loads can be bound, so a command fails only where a file is at fault and a bridge
only for want of a singleton. A start asks for singletons one after another and changes nothing in
the engine; that some are wrapped already makes no difference to the next one. -/
namespace ObjectBridge

namespace Database

variable {db : Database}

/-- Whatever the source of a database is, it is loaded from classes. -/
theorem classes_of_ofBytes {bytes : ByteArray} (run : ofBytes bytes = .ok db) :
    ∃ given constants, ofClasses given constants = .ok db := by
  unfold ofBytes at run
  split at run
  · cases run
  · split at run
    · cases run
    · rename_i doc _
      unfold ofDocument at run
      split at run
      · cases run
      · obtain ⟨given,_,made⟩ := bind_eq_ok.mp run
        exact ⟨given,doc.constants,made⟩

theorem classes_of_ofFile {files : FileReader} {path : String}
    (run : ofFile files path = .ok db) : ∃ given constants, ofClasses given constants = .ok db := by
  unfold ofFile at run
  split at run
  · cases run
  · exact classes_of_ofBytes run

end Database

/-- A command gets its database and its options ready if it can read both. -/
theorem Command.exists_load_iff (files : FileReader) (path : String) (config : Option String) :
    (∃ l, load files path config = .ok l) ↔
      (∃ options, loadOptions files config = .ok options) ∧
        ∃ db, Database.ofFile files path = .ok db := by
  simp only [load,bind_eq_ok,mapError_eq_ok]
  constructor
  · rintro ⟨_,options,given,db,loaded,_⟩
    exact ⟨⟨options,given⟩,db,loaded⟩
  · rintro ⟨⟨options,given⟩,db,loaded⟩
    obtain ⟨classes,constants,made⟩ := Database.classes_of_ofFile loaded
    obtain ⟨l,run,_⟩ := Lattice.ofDatabase_ok (Database.loaded_of_ok made) options
    exact ⟨_,options,given,db,loaded,l,run,rfl⟩

theorem Singleton.ofType_eq (ctx : Context σ) (t : TypeInfo) (world : World σ) :
    ofType ctx t world =
      match ctx.channel.lookupSingleton t.decl.bindingName world.native with
      | .ok h native =>
        match ctx.wrap h ⟨native,world.cache⟩ with
        | .ok w after => .ok ⟨t.decl.bindingName,t,w⟩ after
        | .error fault after => .error fault after
      | .error fault native =>
        .error (.nativeCall "lookup_singleton" fault) ⟨native,world.cache⟩ := by
  simp only [ofType,BridgeM.native,bind,EStateM.bind]
  cases ctx.channel.lookupSingleton t.decl.bindingName world.native with
  | error fault native => rfl
  | ok h native =>
    dsimp only
    cases ctx.wrap h ⟨native,world.cache⟩ <;> rfl

theorem Singletons.addAll_cons (ctx : Context σ) (registry : Singletons) (t : TypeInfo)
    (rest : List TypeInfo) (world : World σ) :
    addAll ctx registry (t :: rest) world =
      match Singleton.ofType ctx t world with
      | .error e after => .error ⟨t.decl.bindingName,e⟩ after
      | .ok s after => addAll ctx (registry.insert s.name s) rest after := rfl

namespace Engine

/-- What crossings on an engine need. -/
def context (l : Lattice) (options : Options) : Context Engine :=
  { channel := channel, lattice := l, options }

variable {e : Engine} {l : Lattice} {options : Options} {h : Handle} {cache : Cache}

theorem reply_live {o : EngineObject} (found : e.objects[h]? = some o) :
    (context l options).reply h e = (.ok o.cls,e) := by
  have asked : channel.classNameOf h e = .ok o.cls e := by
    simp [channel,classNameOf,object,found,bind,EStateM.bind,pure,EStateM.pure]
  simp only [Context.reply,context,asked]

theorem reply_dead (missing : e.objects[h]? = none) :
    (context l options).reply h e = (.error (.destroyedObject h),e) := by
  have asked : channel.classNameOf h e = .error (.destroyedObject h) e := by
    simp [channel,classNameOf,object,missing,bind,EStateM.bind]
  simp only [Context.reply,context,asked]

/-- A live object whose class has a type, be it that of the root. -/
def Recognizes (e : Engine) (l : Lattice) (options : Options) (h : Handle) : Prop :=
  ∃ o : EngineObject, e.objects[h]? = some o ∧
    (l.get? o.cls ≠ none ∨ options.unknownClassFallback = .root)

/-- Only handles that an engine recognizes are entered. -/
def Backs (e : Engine) (l : Lattice) (options : Options) (cache : Cache) : Prop :=
  ∀ (h : Handle) (w : Wrapper), cache.entries[h]? = some w → e.Recognizes l options h

/-- The object of a singleton can be looked up and wrapped, where nothing is wrapped yet. -/
def Obtains (e : Engine) (l : Lattice) (options : Options) (c : ClassDecl) : Prop :=
  ∃ h w world, channel.lookupSingleton c.bindingName e = .ok h e ∧
    (context l options).wrap h { native := e } = .ok w world

theorem resolve_exists (cls : String) : (∃ t, (context l options).resolve cls = .ok t) ↔
    l.get? cls ≠ none ∨ options.unknownClassFallback = .root := by
  have lattice : (context l options).lattice = l := rfl
  have policy : (context l options).options = options := rfl
  unfold Context.resolve
  rw [lattice,policy]
  cases l.get? cls with
  | some t => simp
  | none => cases options.unknownClassFallback <;> simp

/-- A wrap leaves the engine alone. It succeeds on the handles that the engine recognizes, whatever
is entered. -/
theorem wrap_outcome (backed : e.Backs l options cache) :
    match (context l options).wrap h ⟨e,cache⟩ with
    | .ok _ world => world.native = e ∧ e.Backs l options world.cache ∧ e.Recognizes l options h
    | .error _ world => world.native = e ∧ ¬e.Recognizes l options h := by
  cases live : cache.live? h with
  | some w =>
    have entry := (Cache.live?_eq_some.mp live).1
    rw [Context.wrap_live live]
    exact ⟨rfl,backed,backed h w entry⟩
  | none =>
    rw [Context.wrap_new live,Context.enter_eq]
    cases found : (e.objects[h]? : Option EngineObject) with
    | none =>
      rw [reply_dead found]
      refine ⟨rfl,?_⟩
      rintro ⟨o,there,_⟩
      rw [found] at there
      cases there
    | some o =>
      rw [reply_live found]
      cases resolved : (context l options).resolve o.cls with
      | error fault =>
        simp only [Context.typeFor,resolved]
        refine ⟨trivial,?_⟩
        rintro ⟨o',there,known⟩
        obtain rfl := Option.some.inj (found.symm.trans there)
        obtain ⟨t,type⟩ := (resolve_exists o.cls).mpr known
        rw [resolved] at type
        cases type
      | ok type =>
        simp only [Context.typeFor,resolved]
        have recognized : e.Recognizes l options h :=
          ⟨o,found,(resolve_exists o.cls).mp ⟨type,resolved⟩⟩
        refine ⟨trivial,?_,recognized⟩
        intro k w entry
        rcases Cache.entry_of_enter entry with ⟨rfl,_⟩ | entry
        · exact recognized
        · exact backed k w entry

theorem backs_nothing : e.Backs l options {} := by
  intro h w entry
  simp at entry

theorem lookupSingleton_ok {name : String} {after : Engine} :
    channel.lookupSingleton name e = .ok h after ↔
      e.singletons[name]? = some h ∧ e.isAlive h = true ∧ after = e := by
  show lookupSingleton name e = .ok h after ↔ _
  unfold lookupSingleton
  cases named : (e.singletons[name]? : Option Handle) with
  | none => simp
  | some k =>
    by_cases alive : e.isAlive k = true
    · simp only [alive,if_true,EStateM.Result.ok.injEq,Option.some.injEq]
      constructor
      · rintro ⟨rfl,rfl⟩
        exact ⟨rfl,alive,rfl⟩
      · rintro ⟨rfl,_,rfl⟩
        exact ⟨rfl,rfl⟩
    · simp only [alive,if_false,Bool.false_eq_true,reduceCtorEq,Option.some.injEq,false_iff]
      rintro ⟨rfl,also,_⟩
      exact alive also

theorem lookupSingleton_error {name : String} {after : Engine} {fault : ChannelError}
    (asked : channel.lookupSingleton name e = .error fault after) :
    after = e ∧ ∀ h, e.singletons[name]? = some h → e.isAlive h = false := by
  have asked : lookupSingleton name e = .error fault after := asked
  unfold lookupSingleton at asked
  cases named : (e.singletons[name]? : Option Handle) with
  | none =>
    rw [named] at asked
    cases asked
    exact ⟨rfl,nofun⟩
  | some h =>
    simp only [named] at asked
    split at asked
    · cases asked
    · rename_i dead
      cases asked
      refine ⟨rfl,?_⟩
      rintro k same
      obtain rfl := Option.some.inj same
      exact Bool.eq_false_iff.mpr dead

theorem alive_of_recognizes (recognized : e.Recognizes l options h) : e.isAlive h = true := by
  obtain ⟨o,there,_⟩ := recognized
  simp [isAlive,Std.ExtTreeMap.contains_eq_isSome_getElem?,there]

theorem obtains_iff {c : ClassDecl} : e.Obtains l options c ↔
    ∃ h, e.singletons[c.bindingName]? = some h ∧ e.Recognizes l options h := by
  have nothing : e.Backs l options {} := backs_nothing
  have outcome (h : Handle) := wrap_outcome (h := h) nothing
  constructor
  · rintro ⟨h,w,world,named,wrapped⟩
    have facts := outcome h
    rw [wrapped] at facts
    exact ⟨h,(lookupSingleton_ok.mp named).1,facts.2.2⟩
  · rintro ⟨h,named,recognized⟩
    have alive := alive_of_recognizes recognized
    have facts := outcome h
    cases wrapped : (context l options).wrap h { native := e } with
    | ok w world => exact ⟨h,w,world,lookupSingleton_ok.mpr ⟨named,alive,rfl⟩,wrapped⟩
    | error fault world =>
      rw [wrapped] at facts
      exact absurd recognized facts.2

/-- One singleton: had or not as if it were the first, and the engine stays as it is. -/
theorem ofType_outcome (backed : e.Backs l options cache) (t : TypeInfo) :
    match Singleton.ofType (context l options) t ⟨e,cache⟩ with
    | .ok _ world => world.native = e ∧ e.Backs l options world.cache ∧ e.Obtains l options t.decl
    | .error _ world => world.native = e ∧ ¬e.Obtains l options t.decl := by
  have own : (context l options).channel = channel := rfl
  rw [Singleton.ofType_eq,own,obtains_iff]
  dsimp only
  cases asked : channel.lookupSingleton t.decl.bindingName e with
  | error fault native =>
    obtain ⟨rfl,dead⟩ := lookupSingleton_error asked
    refine ⟨rfl,?_⟩
    rintro ⟨h,named,recognized⟩
    have alive := alive_of_recognizes recognized
    rw [dead h named] at alive
    cases alive
  | ok h native =>
    obtain ⟨named,_,rfl⟩ := lookupSingleton_ok.mp asked
    have outcome := wrap_outcome (h := h) backed
    dsimp only
    cases wrapped : (context l options).wrap h ⟨native,cache⟩ with
    | ok w world =>
      rw [wrapped] at outcome
      exact ⟨outcome.1,outcome.2.1,h,named,outcome.2.2⟩
    | error fault world =>
      rw [wrapped] at outcome
      refine ⟨outcome.1,?_⟩
      rintro ⟨k,also,recognized⟩
      obtain rfl := Option.some.inj (named.symm.trans also)
      exact outcome.2 recognized

/-- Singletons are had one after another, up to the first one that cannot be had. -/
theorem addAll_outcome (types : List TypeInfo) (backed : e.Backs l options cache)
    (registry : Singletons) :
    match Singletons.addAll (context l options) registry types ⟨e,cache⟩ with
    | .ok _ world => world.native = e ∧ ∀ t ∈ types, e.Obtains l options t.decl
    | .error failure world => world.native = e ∧ ∃ before t after, types = before ++ t :: after ∧
        (∀ b ∈ before, e.Obtains l options b.decl) ∧ ¬e.Obtains l options t.decl ∧
        failure.name = t.decl.bindingName := by
  induction types generalizing registry cache with
  | nil => exact ⟨rfl,nofun⟩
  | cons t rest ih =>
    have first := ofType_outcome backed t
    rw [Singletons.addAll_cons]
    cases had : Singleton.ofType (context l options) t ⟨e,cache⟩ with
    | error fault world =>
      rw [had] at first
      exact ⟨first.1,[],t,rest,rfl,nofun,first.2,rfl⟩
    | ok s world =>
      rw [had] at first
      obtain ⟨native,cache⟩ := world
      obtain ⟨rfl,backed,obtained⟩ := first
      have later := ih backed (registry.insert s.name s)
      dsimp only at later ⊢
      cases run : Singletons.addAll (context l options) (registry.insert s.name s) rest
          ⟨native,cache⟩ with
      | ok all world =>
        rw [run] at later
        exact ⟨later.1,List.forall_mem_cons.mpr ⟨obtained,later.2⟩⟩
      | error failure world =>
        rw [run] at later
        obtain ⟨same,before,u,after,rfl,had,missing,named⟩ := later
        exact ⟨same,t :: before,u,after,rfl,List.forall_mem_cons.mpr ⟨obtained,had⟩,missing,named⟩

/-- How a bridge starts: with every singleton, or not at all for want of the first one that cannot
be had. The engine is the same afterwards. -/
inductive Starts (e : Engine) (l : Lattice) (options : Options) (singletons : List ClassDecl) :
    EStateM.Result BridgeError (World Engine) (Bridge Engine) → Prop where
  | bound {bridge : Bridge Engine} {world : World Engine} :
      bridge.toContext = context l options → world.native = e →
      (∀ c ∈ singletons, e.Obtains l options c) → Starts e l options singletons (.ok bridge world)
  | missing {before later : List ClassDecl} {c : ClassDecl} {source : BindError}
      {world : World Engine} :
      world.native = e → singletons = before ++ c :: later →
      (∀ b ∈ before, e.Obtains l options b) → ¬e.Obtains l options c →
      Starts e l options singletons (.error (.singleton ⟨c.bindingName,source⟩) world)

/-- Singletons are asked for in the order in which the database has their classes. -/
theorem singleton_types {db : Database} (made : Lattice.Synthesized db options l) :
    (l.types.toList.filter (·.decl.singleton)).map (·.decl) = db.singletons := by
  rw [Database.singletons,← made.built.decls,List.filter_map]
  rfl

theorem starts {db : Database} (synthesized : Lattice.ofDatabase db options = .ok l)
    (made : Lattice.Synthesized db options l) :
    e.Starts l options db.singletons (Bridge.start db channel options e) := by
  have listed := singleton_types made
  have nothing : e.Backs l options {} := backs_nothing
  have outcome := addAll_outcome (l.types.toList.filter (·.decl.singleton)) nothing ∅
  rw [Bridge.start,Bridge.ofDatabase,synthesized]
  dsimp only
  rw [Singletons.ofContext]
  cases run : Singletons.addAll (context l options) ∅
      (l.types.toList.filter (·.decl.singleton)) ⟨e,{}⟩ with
  | ok all world =>
    rw [run] at outcome
    obtain ⟨same,had⟩ := outcome
    have each : ∀ c ∈ db.singletons, e.Obtains l options c := by
      rw [← listed]
      exact List.forall_mem_map.mpr had
    simp only [context] at run
    simp only [run]
    exact .bound rfl same each
  | error failure world =>
    rw [run] at outcome
    obtain ⟨name,source⟩ := failure
    obtain ⟨same,before,t,after,shape,had,missing,rfl⟩ := outcome
    rw [shape,List.map_append,List.map_cons] at listed
    simp only [context] at run
    simp only [run]
    exact .missing same listed.symm (List.forall_mem_map.mpr had) missing

/-- A database that was loaded can be bound under any options, with ids below the number of its
classes. So a command gets ready if it can read its options and its database, and a bridge fails to
start only for want of a singleton. -/
theorem loaded_database_binds {given : List ClassDecl} {constants : NameMap Int64} {db : Database}
    (loaded : Database.ofClasses given constants = .ok db) (options : Options)
    (files : FileReader) (path : String) (config : Option String) :
    (∃ l, Lattice.ofDatabase db options = .ok l ∧
      (∀ (name : String) (id : ClassId), l.ids[name]? = some id → id < db.size) ∧
      ∀ e : Engine, e.Starts l options db.singletons (Bridge.start db channel options e)) ∧
    ((∃ ready, Command.load files path config = .ok ready) ↔
      (∃ options, Command.loadOptions files config = .ok options) ∧
        ∃ db, Database.ofFile files path = .ok db) := by
  obtain ⟨l,synthesized,made⟩ := Lattice.ofDatabase_ok (Database.loaded_of_ok loaded) options
  refine ⟨⟨l,synthesized,?_,fun e => starts synthesized made⟩,
    Command.exists_load_iff files path config⟩
  intro name id given
  obtain ⟨c,place,_⟩ := (made.ids_iff name id).mp given
  exact (List.getElem?_eq_some_iff.mp place).1

/-- Two services, one of which is published under a name of its own. -/
def services : List ClassDecl :=
  [{ name := "Object" },{ name := "Input", parent := some "Object", singleton := true },
   { name := "Audio", parent := some "Object", singleton := true
     singletonName := some "AudioServer" }]

/-- An engine that has published the first of them alone. -/
def silent : Engine :=
  { objects := (∅ : HandleMap EngineObject).insert ⟨1⟩ { cls := "Input" }
    singletons := (∅ : NameMap Handle).insert "Input" ⟨1⟩ }

theorem silent_engine_lacks_audio :
    ∃ db, Database.ofClasses services ∅ = .ok db ∧ ∃ source world,
      Bridge.start db channel {} silent = .error (.singleton ⟨"AudioServer",source⟩) world ∧
        world.native = silent := by
  obtain ⟨db,loaded⟩ : ∃ db, Database.ofClasses services ∅ = .ok db := ⟨_,rfl⟩
  have names : (Database.ofClasses services ∅ >>= fun db =>
      .ok (db.singletons.map (·.bindingName))) = .ok ["Input","AudioServer"] := rfl
  simp only [loaded,bind,Except.bind,Except.ok.injEq] at names
  obtain ⟨⟨l,_,_,starts⟩,_⟩ := loaded_database_binds loaded {} (fun _ => .ok .empty) "" none
  have had (c : ClassDecl) : silent.Obtains l {} c ↔ c.bindingName = "Input" := by
    rw [obtains_iff]
    constructor
    · rintro ⟨h,named,_⟩
      simp only [silent,Std.ExtTreeMap.getElem?_insert] at named
      split at named
      · rename_i same
        exact (Std.LawfulEqCmp.eq_of_compare same).symm
      · simp at named
    · intro same
      refine ⟨⟨1⟩,?_,{ cls := "Input" },?_,.inr rfl⟩
      · simp [silent,same]
      · simp [silent]
  have outcome := starts silent
  refine ⟨db,loaded,?_⟩
  generalize Bridge.start db channel {} silent = result at outcome
  cases outcome with
  | bound _ _ all =>
    have audio : "AudioServer" ∈ db.singletons.map (·.bindingName) := by rw [names]; decide
    obtain ⟨c,member,named⟩ := List.mem_map.mp audio
    have input := (had c).mp (all c member)
    rw [named] at input
    exact absurd input (by decide)
  | @missing _ _ c source world same shape _ lacking =>
    have member : c.bindingName ∈ db.singletons.map (·.bindingName) :=
      List.mem_map_of_mem (by rw [shape]; simp)
    rw [had] at lacking
    have audio : c.bindingName = "AudioServer" := by simpa [names,lacking] using member
    rw [audio]
    exact ⟨source,world,rfl,same⟩

end Engine
end ObjectBridge
