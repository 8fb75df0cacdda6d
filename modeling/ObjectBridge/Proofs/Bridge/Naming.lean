import ObjectBridge.Proofs.Bridge.Founding

/-! Names of a bridge that started. A name stands for a constant, or else for a singleton, or else
for a class. As singletons are published under names that no other class and no other singleton
has, a class gives way only to its own singleton or to a constant, and a singleton only to a
constant. -/
namespace ObjectBridge

variable {db : Database} {given : List ClassDecl} {constants : NameMap Int64} {l : Lattice}
  {options : Options} {name : String} {channel : Channel σ} {native : σ}

/-- What a name stands for. -/
inductive StandsFor (db : Database) (l : Lattice) (singletons : Singletons) (name : String) :
    Option Binding → Prop where
  | constant : db.constants[name]? = some i → StandsFor db l singletons name (some (.constant i))
  | singleton : db.constants[name]? = none → c ∈ db.singletons → c.bindingName = name →
      singletons[name]? = some s → s.name = name → l.get? c.name = some s.type → s.type.decl = c →
      StandsFor db l singletons name (some (.singleton s))
  | cls : db.constants[name]? = none → (∀ c ∈ db.singletons, c.bindingName ≠ name) →
      l.get? name = some t → db.get? name = some t.decl →
      StandsFor db l singletons name (some (.cls t))
  | nothing : db.constants[name]? = none → (∀ c ∈ db.singletons, c.bindingName ≠ name) →
      db.get? name = none → StandsFor db l singletons name none

/-- The names of a bridge, and what becomes of a class or a singleton that has to give way. -/
structure Named (db : Database) (b : Bridge σ) : Prop where
  names : ∀ name : String, StandsFor db b.lattice b.singletons name b.globals[name]?
  /-- There is one entry for each singleton class and no other. -/
  registry : (b.singletons.values.map (·.type.decl)).Perm db.singletons
  alone : ∀ c ∈ db.classes, ∀ s, b.globals[c.name]? = some (.singleton s) → s.type.decl = c
  classes : ∀ c ∈ db.classes,
    (∃ t, b.globals[c.name]? = some (.cls t) ∧ t.decl = c) ∨
    (∃ s, b.globals[c.name]? = some (.singleton s) ∧ s.type.decl = c) ∨
    ∃ i, b.globals[c.name]? = some (.constant i) ∧ db.constants[c.name]? = some i
  singletons : ∀ c ∈ db.singletons,
    (∃ s, b.globals[c.bindingName]? = some (.singleton s) ∧ s.type.decl = c) ∨
    ∃ i, b.globals[c.bindingName]? = some (.constant i) ∧ db.constants[c.bindingName]? = some i

namespace Lattice.Synthesized

variable {t : TypeInfo}

theorem mem_types_iff (made : Synthesized db options l) :
    t ∈ l.types.toList ↔ l.byId? t.id = some t := by
  constructor
  · intro member
    obtain ⟨i,found⟩ := exists_place member
    rwa [made.id_eq found]
  · intro found
    exact Array.mem_toList_iff.mpr (Array.mem_of_getElem? found)

/-- Without singletons and constants every name stands for its class. -/
theorem ofClasses_getElem? (made : Synthesized db options l) (name : String) :
    (Namespace.ofClasses l)[name]? = (l.get? name).map .cls := by
  have listed (binding : Binding) : (name,binding) ∈ l.types.toList.map (fun t => (t.name,.cls t)) ↔
      ∃ t, l.get? name = some t ∧ .cls t = binding := by
    rw [List.mem_map]
    refine exists_congr fun t => ?_
    rw [made.mem_types_iff,made.get?_eq_some,Prod.mk.injEq]
    tauto
  apply Option.ext
  intro binding
  rw [Namespace.ofClasses,NameMap.ofPairs_eq_some,listed,Option.map_eq_some_iff]
  intro a b first second
  obtain ⟨t,found,rfl⟩ := (listed a).mp first
  obtain ⟨u,also,rfl⟩ := (listed b).mp second
  rw [Option.some.inj (found.symm.trans also)]

end Lattice.Synthesized

theorem Singleton.ofType_ok {ctx : Context σ} {t : TypeInfo} {s : Singleton} {world after : World σ}
    (run : ofType ctx t world = .ok s after) : s.name = t.decl.bindingName ∧ s.type = t := by
  rw [ofType_eq] at run
  split at run
  · split at run
    · cases run
      exact ⟨rfl,rfl⟩
    · cases run
  · cases run

namespace Singletons

/-- Whatever the engine says, the entries are those of the types that were asked for, each under
the name that its class publishes. -/
theorem addAll_entries {ctx : Context σ} {types : List TypeInfo} {registry all : Singletons}
    {world after : World σ} (apart : (types.map (·.decl.bindingName)).Nodup)
    (fresh : ∀ t ∈ types, registry[t.decl.bindingName]? = none)
    (run : addAll ctx registry types world = .ok all after) :
    (all.values.map (·.type)).Perm (types ++ registry.values.map (·.type)) ∧
    ∀ (name : String) (s : Singleton), all[name]? = some s → registry[name]? = some s ∨
      s.name = name ∧ s.type.decl.bindingName = name := by
  induction types generalizing registry world with
  | nil =>
    cases run
    exact ⟨.refl _,fun _ _ found => .inl found⟩
  | cons t rest ih =>
    obtain ⟨new,distinct⟩ := List.nodup_cons.mp apart
    obtain ⟨free,unused⟩ := List.forall_mem_cons.mp fresh
    rw [addAll_cons] at run
    split at run
    · cases run
    · rename_i s world had
      obtain ⟨named,rfl⟩ := Singleton.ofType_ok had
      have others : ∀ u ∈ rest, (registry.insert s.name s)[u.decl.bindingName]? = none := by
        intro u member
        have other : s.type.decl.bindingName ≠ u.decl.bindingName :=
          fun same => new (List.mem_map.mpr ⟨u,member,same.symm⟩)
        rw [named,Std.ExtTreeMap.getElem?_insert,if_neg (by simpa using other)]
        exact unused u member
      obtain ⟨listed,entries⟩ := ih distinct others run
      have added := (NameMap.values_insert_new (a := s) (named ▸ free)).map (·.type)
      refine ⟨(listed.trans (added.append_left rest)).trans List.perm_middle,?_⟩
      intro name u found
      rcases entries name u found with before | under
      · rw [Std.ExtTreeMap.getElem?_insert] at before
        split at before
        · rename_i same
          obtain rfl := Option.some.inj before
          obtain rfl := Std.LawfulEqCmp.eq_of_compare same
          exact .inr ⟨rfl,named.symm⟩
        · exact .inl before
      · exact .inr under

end Singletons

/-- What a start comes to, whatever the engine is. -/
theorem Bridge.start_ok {b : Bridge σ} {world : World σ}
    (run : start db channel options native = .ok b world) :
    Lattice.ofDatabase db options = .ok b.lattice ∧
    Singletons.ofContext b.toContext { native } = .ok b.singletons world ∧
    b.globals = Namespace.ofParts b.lattice b.singletons db.constants := by
  rw [start,ofDatabase] at run
  split at run
  · cases run
  · rename_i l synthesized
    dsimp only at run
    split at run
    · cases run
    · rename_i had
      cases run
      exact ⟨synthesized,had,rfl⟩

/-- The registry of a bridge that started: one entry for each singleton class, under the name that
the class publishes. -/
structure Registered (db : Database) (l : Lattice) (singletons : Singletons) : Prop where
  classes : (singletons.values.map (·.type.decl)).Perm db.singletons
  types : ∀ (name : String) (s : Singleton), singletons[name]? = some s →
    s.name = name ∧ s.type.decl.bindingName = name ∧ l.get? s.type.name = some s.type

namespace Registered

variable {singletons : Singletons} {c : ClassDecl}

theorem of_run (loaded : Database.Loaded given constants db) {ctx : Context σ}
    (made : Lattice.Synthesized db options ctx.lattice) {world after : World σ}
    (run : Singletons.ofContext ctx world = .ok singletons after) :
    Registered db ctx.lattice singletons := by
  have names : ((ctx.lattice.types.toList.filter (·.decl.singleton)).map
      (·.decl.bindingName)).Nodup := by
    have apart := loaded.singletons_apart
    rwa [← Engine.singleton_types made,List.map_map] at apart
  obtain ⟨listed,entries⟩ := Singletons.addAll_entries names (fun _ _ => by simp) run
  have nothing : (∅ : Singletons).values = [] := by simp [NameMap.values_eq]
  rw [nothing,List.map_nil,List.append_nil] at listed
  constructor
  · have decls := listed.map (·.decl)
    rwa [List.map_map,Engine.singleton_types made] at decls
  · intro name s found
    obtain ⟨named,binding⟩ := (entries name s found).resolve_left (by simp)
    have member : s.type ∈ singletons.values.map (·.type) :=
      List.mem_map_of_mem (NameMap.mem_values.mpr ⟨name,found⟩)
    have among := (List.mem_filter.mp (listed.mem_iff.mp member)).1
    exact ⟨named,binding,made.get?_eq_some.mpr ⟨rfl,made.mem_types_iff.mp among⟩⟩

variable (registered : Registered db l singletons)
include registered

theorem entry (member : c ∈ db.singletons) :
    ∃ s, singletons[c.bindingName]? = some s ∧ s.type.decl = c := by
  obtain ⟨s,listed,rfl⟩ := List.mem_map.mp (registered.classes.mem_iff.mpr member)
  obtain ⟨name,found⟩ := NameMap.mem_values.mp listed
  obtain ⟨_,rfl,_⟩ := registered.types name s found
  exact ⟨s,found,rfl⟩

theorem origin {s : Singleton} (found : singletons[name]? = some s) :
    s.type.decl ∈ db.singletons :=
  registered.classes.mem_iff.mp (List.mem_map_of_mem (NameMap.mem_values.mpr ⟨name,found⟩))

theorem missing (none : singletons[name]? = none) : ∀ c ∈ db.singletons, c.bindingName ≠ name := by
  rintro c member rfl
  obtain ⟨s,found,_⟩ := registered.entry member
  rw [none] at found
  cases found

/-- What a name stands for is what the namespace has under it. -/
theorem standsFor (loaded : Database.Loaded given constants db)
    (made : Lattice.Synthesized db options l) (name : String) : StandsFor db l singletons name
      (Namespace.ofParts l singletons db.constants)[name]? := by
  rw [Namespace.ofParts_getElem?,made.ofClasses_getElem?]
  cases constant : (db.constants[name]? : Option Int64) with
  | some i => exact .constant constant
  | none =>
    cases single : (singletons[name]? : Option Singleton) with
    | some s =>
      obtain ⟨named,binding,known⟩ := registered.types name s single
      exact .singleton constant (registered.origin single) binding single named known rfl
    | none =>
      have others := registered.missing single
      have decl := made.get?_decl loaded name
      cases known : l.get? name with
      | some t =>
        rw [known] at decl
        exact .cls constant others known decl.symm
      | none =>
        rw [known] at decl
        exact .nothing constant others decl.symm

end Registered

/-- A singleton that is published as a class is the singleton of that class. -/
theorem Database.Loaded.singleton_alone (loaded : Loaded given constants db) {c s : ClassDecl}
    (mc : c ∈ db.classes) (ms : s ∈ db.singletons) (same : s.bindingName = c.name) : s = c := by
  obtain ⟨ms,single⟩ := List.mem_filter.mp ms
  exact (loaded.acceptable.singletons.hides s (loaded.perm.mem_iff.mp ms) single c
    (loaded.perm.mem_iff.mp mc) same.symm).symm

/-- Over every channel on which a bridge to a loaded database starts, each name stands for a
constant, else for the singleton that is published under it, else for its class. -/
theorem names_of_bridge (loaded : Database.ofClasses given constants = .ok db) {b : Bridge σ}
    {world : World σ} (started : Bridge.start db channel options native = .ok b world) :
    Named db b := by
  have facts := Database.loaded_of_ok loaded
  obtain ⟨synthesized,had,shape⟩ := Bridge.start_ok started
  have made := Lattice.synthesized_of_ok facts synthesized
  have registered : Registered db b.lattice b.singletons := .of_run facts made had
  have names (name : String) : StandsFor db b.lattice b.singletons name b.globals[name]? :=
    shape ▸ registered.standsFor facts made name
  refine ⟨names,registered.classes,?_,?_,?_⟩
  · intro c member s found
    have stands := names c.name
    rw [found] at stands
    cases stands with
    | singleton _ single named _ _ _ same =>
      exact same.trans (facts.singleton_alone member single named)
  · intro c member
    have stands := names c.name
    have known : db.get? c.name = some c := facts.indexes.self member
    generalize b.globals[c.name]? = binding at stands
    cases stands with
    | constant found => exact .inr (.inr ⟨_,rfl,found⟩)
    | singleton _ single named _ _ _ same =>
      exact .inr (.inl ⟨_,rfl,same.trans (facts.singleton_alone member single named)⟩)
    | cls _ _ _ declared =>
      rw [known] at declared
      exact .inl ⟨_,rfl,(Option.some.inj declared).symm⟩
    | nothing _ _ missing =>
      rw [known] at missing
      cases missing
  · intro c member
    have stands := names c.bindingName
    generalize b.globals[c.bindingName]? = binding at stands
    cases stands with
    | constant found => exact .inr ⟨_,rfl,found⟩
    | @singleton d s _ _ _ found _ _ same =>
      obtain ⟨own,also,rfl⟩ := registered.entry member
      obtain rfl := Option.some.inj (found.symm.trans also)
      exact .inl ⟨_,rfl,rfl⟩
    | cls _ others _ _ => exact absurd rfl (others c member)
    | nothing _ others _ => exact absurd rfl (others c member)

/-- An engine that has published all services. -/
def serving : Engine :=
  Engine.ofHistory (Engine.classSteps Engine.services ++ Engine.singletonSteps Engine.services)

def inputCode : NameMap Int64 := (∅ : NameMap Int64).insert "Input" 3

theorem input_gives_way : ∃ db b world, Database.ofClasses Engine.services inputCode = .ok db ∧
    Bridge.start db Engine.channel {} serving = .ok b world ∧ Named db b ∧
    b.globals["Input"]? = some (.constant 3) ∧
    ∃ s, b.globals["AudioServer"]? = some (.singleton s) ∧ s.type.name = "Audio" := by
  obtain ⟨db,loaded⟩ : ∃ db, Database.ofClasses Engine.services inputCode = .ok db := ⟨_,rfl⟩
  have computed : (match Database.ofClasses Engine.services inputCode with
      | .error _ => none
      | .ok db =>
        match Bridge.start db Engine.channel {} serving with
        | .error .. => none
        | .ok _ _ => some (db.singletons.map fun c => (c.bindingName,c.name))) =
      some [("Input","Input"),("AudioServer","Audio")] := by decide +kernel
  rw [loaded] at computed
  dsimp only at computed
  split at computed
  · cases computed
  · rename_i b world started
    have all := names_of_bridge loaded started
    have constants : db.constants = inputCode := (Database.loaded_of_ok loaded).constants
    refine ⟨db,b,world,loaded,started,all,?_,?_⟩
    · have stands := all.names "Input"
      have code : db.constants["Input"]? = some 3 := by simp [constants,inputCode]
      generalize b.globals["Input"]? = binding at stands
      cases stands with
      | constant found => rw [Option.some.inj (found.symm.trans code)]
      | singleton none => simp [code] at none
      | cls none => simp [code] at none
      | nothing none => simp [code] at none
    · have audio : ("AudioServer","Audio") ∈ db.singletons.map fun c => (c.bindingName,c.name) := by
        rw [Option.some.inj computed]
        decide
      obtain ⟨c,member,same⟩ := List.mem_map.mp audio
      obtain ⟨binding,name⟩ := Prod.mk.inj same
      rcases all.singletons c member with ⟨s,found,rfl⟩ | ⟨i,_,code⟩
      · exact ⟨s,binding ▸ found,name⟩
      · simp [constants,inputCode,binding] at code

end ObjectBridge
