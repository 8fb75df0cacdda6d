import ObjectBridge.Proofs.Bridge.Turns

/-! Founding. A bridge that started has one reference to each of its singletons and no other; it
asked the engine and left it as it was. -/
namespace ObjectBridge

open Cache (Visits)

variable {db : Database} {given : List ClassDecl} {constants : NameMap Int64} {l : Lattice}
  {options : Options} {e : Engine}

/-- What is true of a bridge when it starts. -/
structure Founded (db : Database) (options : Options) (e : Engine) (l : Lattice)
    (b : Bridge Engine) (world : World Engine) : Prop where
  synthesized : Lattice.Synthesized db options l
  context : b.toContext = Engine.context l options
  globals : b.globals = Namespace.ofParts l b.singletons db.constants
  native : world.native = e
  visits : Visits (e.Names l options) ⟨[],{}⟩ ⟨b.singletons.values.map (·.wrapper),world.cache⟩

/-- Singletons are published under different names. -/
theorem Database.Loaded.singletons_apart (loaded : Database.Loaded given constants db) :
    (db.singletons.map (·.bindingName)).Nodup := by
  have distinct : db.singletons.Nodup :=
    (List.Nodup.of_map _ loaded.indexes.distinct).filter _
  apply List.Nodup.map_on _ distinct
  intro s ms t mt same
  obtain ⟨ms,single⟩ := List.mem_filter.mp ms
  obtain ⟨mt,also⟩ := List.mem_filter.mp mt
  exact loaded.acceptable.singletons.shares s (loaded.perm.mem_iff.mp ms) t
    (loaded.perm.mem_iff.mp mt) single also same

theorem Singletons.wrappers_insert {registry : Singletons} {s : Singleton}
    (fresh : registry[s.name]? = none) :
    ((registry.insert s.name s).values.map (·.wrapper)).Perm
      (s.wrapper :: registry.values.map (·.wrapper)) :=
  (NameMap.values_insert_new fresh).map _

theorem Namespace.ofParts_getElem? (l : Lattice) (singletons : Singletons)
    (constants : NameMap Int64) (name : String) : (ofParts l singletons constants)[name]? =
      (constants[name]?.map .constant).or
        ((singletons[name]?.map .singleton).or (ofClasses l)[name]?) := by
  rw [ofParts,Std.ExtTreeMap.getElem?_union,Std.ExtTreeMap.getElem?_union,
    Std.ExtTreeMap.getElem?_map,Std.ExtTreeMap.getElem?_map]

/-- An object in a namespace is that of a singleton. -/
theorem Namespace.object_ofParts {singletons : Singletons} {name : String} {v : Value}
    {w : Wrapper}
    (named : ((ofParts l singletons constants)[name]? : Option Binding).bind (·.value?) = some v)
    (object : v.object? = some w) :
    ∃ single, singletons[name]? = some single ∧ single.wrapper = w := by
  obtain ⟨binding,found,value⟩ := Option.bind_eq_some_iff.mp named
  rw [ofParts_getElem?] at found
  cases constant : (constants[name]? : Option Int64) with
  | some i =>
    rw [constant] at found
    cases found
    cases value
    cases object
  | none =>
    rw [constant] at found
    cases known : (singletons[name]? : Option Singleton) with
    | some single =>
      rw [known] at found
      cases found
      cases value
      cases object
      exact ⟨single,rfl,rfl⟩
    | none =>
      rw [known] at found
      have listed : (ofClasses l)[name]? = some binding := found
      rw [ofClasses,NameMap.ofPairs_getElem?] at listed
      have member := List.mem_reverse.mp (NameMap.mem_of_lookup listed)
      obtain ⟨t,_,same⟩ := List.mem_map.mp member
      cases same
      cases value

namespace Engine

theorem addAll_visits {types : List TypeInfo}
    (apart : (types.map (·.decl.bindingName)).Nodup) {registry all : Singletons} {cache : Cache}
    {after : World Engine} (fresh : ∀ t ∈ types, registry[t.decl.bindingName]? = none)
    (run : Singletons.addAll (context l options) registry types ⟨e,cache⟩ = .ok all after) :
    after.native = e ∧ Visits (e.Names l options) ⟨registry.values.map (·.wrapper),cache⟩
      ⟨all.values.map (·.wrapper),after.cache⟩ := by
  induction types generalizing registry cache with
  | nil =>
    cases run
    exact ⟨rfl,.refl⟩
  | cons t rest ih =>
    obtain ⟨new,apart⟩ := List.nodup_cons.mp apart
    obtain ⟨free,fresh⟩ := List.forall_mem_cons.mp fresh
    have own : (context l options).channel = channel := rfl
    rw [Singletons.addAll_cons,Singleton.ofType_eq,own] at run
    dsimp only at run
    cases asked : channel.lookupSingleton t.decl.bindingName e with
    | error fault native => simp [asked] at run
    | ok h native =>
      obtain ⟨_,_,rfl⟩ := lookupSingleton_ok.mp asked
      rw [asked] at run
      have outcome := wrap_quietly l options h ⟨native,cache⟩ (registry.values.map (·.wrapper))
      dsimp only at run
      cases wrapped : (context l options).wrap h ⟨native,cache⟩ with
      | error fault world => simp [wrapped] at run
      | ok w world =>
        rw [wrapped] at run outcome
        obtain ⟨native',cache'⟩ := world
        obtain ⟨stays,visits⟩ := outcome
        obtain rfl : native' = native := stays
        have others : ∀ u ∈ rest,
            (registry.insert t.decl.bindingName ⟨t.decl.bindingName,t,w⟩)[u.decl.bindingName]? =
              none := by
          intro u member
          have other : t.decl.bindingName ≠ u.decl.bindingName :=
            fun same => new (List.mem_map.mpr ⟨u,member,same.symm⟩)
          rw [Std.ExtTreeMap.getElem?_insert,if_neg (by simpa using other)]
          exact fresh u member
        obtain ⟨same,later⟩ := ih apart others run
        have listed := Singletons.wrappers_insert (s := ⟨t.decl.bindingName,t,w⟩) free
        exact ⟨same,(visits.tail (.reorder listed.symm)).trans later⟩

/-- A bridge that starts is founded on the lattice of its database. -/
theorem founded (loaded : Database.Loaded given constants db) {b : Bridge Engine}
    {world : World Engine} (run : Bridge.start db channel options e = .ok b world) :
    ∃ l, Lattice.ofDatabase db options = .ok l ∧ Founded db options e l b world := by
  obtain ⟨l,synthesized,made⟩ := Lattice.ofDatabase_ok loaded options
  refine ⟨l,synthesized,?_⟩
  rw [Bridge.start,Bridge.ofDatabase,synthesized] at run
  dsimp only at run
  rw [Singletons.ofContext] at run
  have names : ((l.types.toList.filter (·.decl.singleton)).map (·.decl.bindingName)).Nodup := by
    have apart := loaded.singletons_apart
    rwa [← singleton_types made,List.map_map] at apart
  cases had : Singletons.addAll (context l options) ∅
      (l.types.toList.filter (·.decl.singleton)) ⟨e,{}⟩ with
  | error failure after =>
    simp only [context] at had
    simp [had] at run
  | ok all after =>
    obtain ⟨same,visits⟩ := addAll_visits names (fun _ _ => by simp) had
    simp only [context] at had
    simp only [had] at run
    cases run
    have nothing : (∅ : Singletons).values = [] := by simp [NameMap.values_eq]
    exact ⟨made,rfl,rfl,same,by simpa [nothing] using visits⟩

end Engine
end ObjectBridge
