import ObjectBridge.Proofs.Database.Permutation
import ObjectBridge.Proofs.Lattice.Inheritance

/-! Inherited properties. A property is checked from the class that declares it, and descendants
inherit it with its accessors. A descendant that declares an accessor anew is not checked against
the property, so the new accessor may not fit; as long as none does, the one that fits is found. -/
namespace ObjectBridge

/-- The method that a class finds for an accessor of a property that `top` declares. -/
inductive Accessor (classes : List ClassDecl) (top c : ClassDecl) (name : String)
    (Fits : MethodDecl → Prop) (m : MethodDecl) : Prop where
  /-- It is what `top` finds too. -/
  | inherited : Nearest classes (·.method? name) c owner m →
      Nearest classes (·.method? name) top owner m → Fits m → Accessor classes top c name Fits m
  | overridden : Nearest classes (·.method? name) c owner m →
      Relation.TransGen (Parent classes) owner top → Accessor classes top c name Fits m

section Overrides

variable {classes : List ClassDecl} {has : ClassDecl → Option β} {c d owner top : ClassDecl} {b : β}
  {name : String} {Fits : MethodDecl → Prop} {m : MethodDecl}

/-- A search from further down ends at the same class, unless it ends below the start. -/
theorem Nearest.from_below (nearest : Nearest classes has c owner b)
    (reach : Relation.ReflTransGen (Parent classes) d c) :
    Nearest classes has d owner b ∨
      ∃ lower a, Nearest classes has d lower a ∧ Relation.TransGen (Parent classes) lower c := by
  induction reach using Relation.ReflTransGen.head_induction_on with
  | refl => exact .inl nearest
  | @head d e parent reach ih =>
    cases own : has d with
    | some a => exact .inr ⟨d,a,.here own,.head' parent reach⟩
    | none =>
      rcases ih with same | ⟨lower,a,found,below⟩
      · exact .inl (.above own parent same)
      · exact .inr ⟨lower,a,.above own parent found,below⟩

theorem Accessor.nearest (accessor : Accessor classes top c name Fits m) :
    ∃ owner, Nearest classes (·.method? name) c owner m := by
  cases accessor with
  | inherited nearest _ _ => exact ⟨_,nearest⟩
  | overridden nearest _ => exact ⟨_,nearest⟩

theorem Accessor.exists_from_below (nearest : Nearest classes (·.method? name) top owner m)
    (fits : Fits m) (reach : Relation.ReflTransGen (Parent classes) c top) :
    ∃ m, Accessor classes top c name Fits m := by
  rcases nearest.from_below reach with same | ⟨lower,other,found,below⟩
  · exact ⟨m,.inherited same nearest fits⟩
  · exact ⟨other,.overridden found below⟩

end Overrides

/-- A property in an own table is one that the class declares, under whatever key. -/
theorem Bind.property_of_table {ids : NameMap ClassId} {options : Options} {c : ClassDecl}
    {own : MemberTable} {name : String} {b : PropertyBinding}
    (run : table ids options c = .ok own) (entry : own[name]? = some (.property b)) :
    b.owner = c.name ∧ ∃ key : String, c.properties[key]? = some b.decl := by
  cases entered_of_table run entry with
  | property declared made =>
    obtain ⟨_,_,rfl⟩ := property_eq_ok.mp made
    exact ⟨rfl,NameMap.mem_values.mp declared⟩

namespace Lattice

variable {db : Database} {options : Options} {l : Lattice} {t : TypeInfo} {name : String}
  {b : PropertyBinding} {given : List ClassDecl} {constants : NameMap Int64}

/-- A property that is visible on a type, and what the type's class finds for its accessors. -/
structure Inherits (db : Database) (t : TypeInfo) (b : PropertyBinding) (top : ClassDecl) :
    Prop where
  owner : top ∈ db.ancestors t.name ∧ top.name = b.owner
  declared : ∃ key : String, top.properties[key]? = some b.decl
  getter : ∃ m, db.index.findMethod? t.decl b.decl.getter = some m ∧
    Accessor db.classes top t.decl b.decl.getter (FitsGetter db.classes b.decl) m
  setter : ∀ setter, b.decl.setter = some setter →
    ∃ m, db.index.findMethod? t.decl setter = some m ∧
      Accessor db.classes top t.decl setter (FitsSetter db.classes b.decl) m

theorem exists_inherits (loaded : Database.Loaded given constants db)
    (made : Synthesized db options l) (found : l.byId? t.id = some t)
    (visible : t.member? name = some (.property b)) : ∃ top, Inherits db t b top := by
  obtain ⟨line,here⟩ := exists_line made found
  rw [here.members] at visible
  obtain ⟨u,above,entry⟩ := List.exists_of_findSome?_eq_some visible
  have place := made.built.places u.id u (here.within u above)
  obtain ⟨named,key,declared⟩ := Bind.property_of_table place.table entry
  have ancestors := here.ancestors_eq made loaded.indexes
  have listed : u.decl ∈ db.ancestors t.name := by
    rw [ancestors]
    exact List.mem_map_of_mem above
  have member := made.decl_mem found
  have mu := made.decl_mem (here.within u above)
  have within : given ⊆ db.classes := fun c => loaded.mem_iff.mpr
  have fits := ((loaded.acceptable.members u.decl (loaded.mem_iff.mp mu)).properties key b.decl
    declared).mono within
  have reach := Parent.reach_mono within ((loaded.mem_ancestors_iff member).mp listed)
  have accessor {method : String} {Fits : MethodDecl → Prop} {owner : ClassDecl} {m : MethodDecl}
      (nearest : Nearest db.classes (·.method? method) u.decl owner m) (fits : Fits m) :
      ∃ m, db.index.findMethod? t.decl method = some m ∧
        Accessor db.classes u.decl t.decl method Fits m := by
    obtain ⟨m,accessor⟩ := Accessor.exists_from_below nearest fits reach
    obtain ⟨found,search⟩ := accessor.nearest
    have resolved := (loaded.given_indexes.findMethod?_iff loaded.acceptable.acyclic
      (loaded.mem_iff.mp member)).mpr ⟨found,search.mono fun c => loaded.mem_iff.mp⟩
    exact ⟨m,resolved,accessor⟩
  refine ⟨u.decl,⟨listed,named.symm⟩,⟨key,declared⟩,?_,?_⟩
  · obtain ⟨owner,m,nearest,getter⟩ := fits.getter
    exact accessor nearest getter
  · intro setter used
    obtain ⟨owner,m,nearest,fits⟩ := fits.setter setter used
    exact accessor nearest fits

/-- A node reads a size of its own in another way; a panel does not. -/
def redeclaring : List ClassDecl :=
  [{ name := "Object", methods := [{ name := "get_size", returns := .int }]
     properties := NameMap.ofPairs
       [("size",{ name := "size", tag := .int, getter := "get_size" })] },
   { name := "Node", parent := some "Object"
     methods := [{ name := "get_size", params := [.int], returns := .string }] },
   { name := "Panel", parent := some "Object" }]

/-- The size is visible on a node, whose getter takes an argument. -/
theorem redeclared_getter_need_not_fit : ∃ db l t b m,
    Database.ofClasses redeclaring ∅ = .ok db ∧ ofDatabase db {} = .ok l ∧
    l.get? "Node" = some t ∧ t.member? "size" = some (.property b) ∧
    db.index.findMethod? t.decl b.decl.getter = some m ∧ ¬FitsGetter db.classes b.decl m := by
  obtain ⟨db,loaded⟩ : ∃ db, Database.ofClasses redeclaring ∅ = .ok db := ⟨_,rfl⟩
  obtain ⟨l,run,_⟩ := ofDatabase_ok (Database.loaded_of_ok loaded) {}
  have computed : (Database.ofClasses redeclaring ∅ >>= fun db => ofDatabase db {} >>= fun l =>
      .ok ((l.get? "Node").map fun t =>
        (t.member? "size",db.index.findMethod? t.decl "get_size"))) =
      .ok (some (some (.property
          ⟨"Object",{ name := "size", tag := .int, getter := "get_size" },.int⟩),
        some { name := "get_size", params := [.int], returns := .string })) := rfl
  simp only [loaded,run,bind,Except.bind,Except.ok.injEq,Option.map_eq_some_iff,
    Prod.mk.injEq] at computed
  obtain ⟨t,known,visible,resolved⟩ := computed
  refine ⟨db,l,t,_,_,loaded,run,known,visible,resolved,?_⟩
  rintro ⟨bare,_⟩
  cases bare

/-- On every class, a visible property is one that the class or an ancestor of it declares, and its
accessors are found. They fit, unless a class further down has declared them anew. -/
theorem accessors_fit_unless_overridden (loaded : Database.ofClasses given constants = .ok db)
    (options : Options) : ∃ l, ofDatabase db options = .ok l ∧
      ∀ c ∈ db.classes, ∃ t, l.get? c.name = some t ∧ t.decl = c ∧
        ∀ name b, t.member? name = some (.property b) → ∃ top, Inherits db t b top := by
  have facts := Database.loaded_of_ok loaded
  obtain ⟨l,run,made⟩ := ofDatabase_ok facts options
  refine ⟨l,run,?_⟩
  intro c member
  obtain ⟨t,known,same,found⟩ := made.exists_get? member
  exact ⟨t,known,same,fun _ _ visible => exists_inherits facts made found visible⟩

/-- What a panel finds to read its size is the getter of the object, and it fits. -/
theorem panel_inherits_size : ∃ db l t b top m, Database.ofClasses redeclaring ∅ = .ok db ∧
    ofDatabase db {} = .ok l ∧ l.get? "Panel" = some t ∧
    t.member? "size" = some (.property b) ∧ Inherits db t b top ∧ top.name = "Object" ∧
    db.index.findMethod? t.decl b.decl.getter = some m ∧
    db.index.findMethod? top b.decl.getter = some m ∧ FitsGetter db.classes b.decl m := by
  obtain ⟨db,loaded,classes,c,member,named,bare,parent⟩ : ∃ db,
      Database.ofClasses redeclaring ∅ = .ok db ∧ db.classes = redeclaring ∧
      ∃ c ∈ db.classes, c.name = "Panel" ∧ c.method? "get_size" = none ∧
        c.parent = some "Object" := ⟨_,rfl,rfl,_,.tail _ (.tail _ (.head _)),rfl,rfl,rfl⟩
  have root : ∀ d ∈ db.classes, d.name = "Object" → d.parent = none := by
    simp [classes,redeclaring]
  obtain ⟨l,run,all⟩ := accessors_fit_unless_overridden loaded {}
  obtain ⟨t,known,decl,inherited⟩ := all c member
  rw [named] at known
  have computed : (Database.ofClasses redeclaring ∅ >>= fun db => ofDatabase db {} >>= fun l =>
      .ok ((l.get? "Panel").map (·.member? "size"))) =
      .ok (some (some (.property
        ⟨"Object",{ name := "size", tag := .int, getter := "get_size" },.int⟩))) := rfl
  simp only [loaded,run,known,bind,Except.bind,Except.ok.injEq,Option.map_some,
    Option.some.injEq] at computed
  obtain ⟨top,inherits⟩ := inherited "size" _ computed
  obtain ⟨m,found,accessor⟩ := inherits.getter
  have facts := Database.loaded_of_ok loaded
  have mt := facts.ancestors_within (decl ▸ member) top inherits.owner.1
  refine ⟨db,l,t,_,top,m,loaded,run,known,computed,inherits,inherits.owner.2,found,?_⟩
  cases accessor with
  | inherited _ above fits =>
    have search := above.mono fun d => facts.mem_iff.mp
    exact ⟨(facts.given_indexes.findMethod?_iff facts.acceptable.acyclic (facts.mem_iff.mp mt)).mpr
      ⟨_,search⟩,fits⟩
  | overridden search below =>
    -- the only class above a panel is the object, which is below none
    rw [decl] at search
    cases search with
    | here own =>
      rw [bare] at own
      cases own
    | @above _ p _ _ _ up search =>
      have last (d : ClassDecl) : ¬Parent db.classes p d := by
        rintro ⟨_,_,next⟩
        rw [root p up.2.1 (Option.some.inj (up.2.2.symm.trans parent))] at next
        cases next
      cases search with
      | here =>
        obtain ⟨d,next,_⟩ := Relation.TransGen.head'_iff.mp below
        exact absurd next (last d)
      | above _ next _ => exact absurd next (last _)

end Lattice
end ObjectBridge
