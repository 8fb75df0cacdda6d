import ObjectBridge.Proofs.Engine.Lineage
import ObjectBridge.Proofs.Lattice.Chain

/-! One inheritance relation. The database walks along its index, validation asks for assignable
tags, types carry chains of ids and an engine follows names; all of them see the same line of
classes above a class, hence the same order of classes. -/
namespace ObjectBridge.Lattice

/-- Ids are the places of types; a parent has a smaller id than its children. -/
structure Numbered (db : Database) (l : Lattice) : Prop where
  size : l.size = db.classes.length
  places : ∀ i, i < l.size → ∃ t, l.byId? i = some t ∧ t.id = i ∧ t.decl ∈ db.classes
  root : ∀ i t, l.byId? i = some t → t.decl.parent = none → t.parent = none
  child : ∀ i t, l.byId? i = some t → ∀ name, t.decl.parent = some name →
    ∃ p, t.parent = some p.id ∧ p.id < t.id ∧ l.byId? p.id = some p ∧ p.name = name

/-- The line of ancestors of a class, as the database, the lattice and the engine see it. -/
structure SameLine (db : Database) (l : Lattice) (e : Engine) (c : ClassDecl) : Prop where
  climbs : db.Climbs c (db.ancestors c.name)
  types : ∃ t, l.get? c.name = some t ∧
    (l.hierarchy t.id).map (·.name) = (db.ancestors c.name).map (·.name)
  engine : e.lineage c.name = (db.ancestors c.name).map (·.name)

/-- Whether one class is another or below it, as lattice and loader see it. -/
structure SameOrder (db : Database) (l : Lattice) (a b : ClassDecl) : Prop where
  types : l.isSubclass a.name b.name = true ↔ b ∈ db.ancestors a.name
  tags : db.index.assignable (.object (some a.name)) (.object (some b.name)) = true ↔
    b ∈ db.ancestors a.name

variable {db : Database} {options : Options} {l : Lattice} {e : Engine} {i : ClassId}
  {t : TypeInfo} {a b c : ClassDecl} {given : List ClassDecl} {constants : NameMap Int64}

theorem numbered (made : Synthesized db options l) : Numbered db l := by
  constructor
  case size => exact made.built.size_eq
  case places =>
    intro i inside
    have found : l.byId? i = some l.types[i] := Array.getElem?_eq_getElem inside
    exact ⟨_,found,made.id_eq found,made.decl_mem found⟩
  case root =>
    intro i t found parent
    cases made.built.places i t found with
    | root _ _ => rfl
    | child other _ _ _ => rw [parent] at other; cases other
  case child =>
    intro i t found name parent
    cases made.built.places i t found with
    | root none _ => rw [none] at parent; cases parent
    | @child _ _ p named before above _ =>
      obtain rfl := Option.some.inj (named.symm.trans parent)
      exact ⟨p,rfl,before,above,rfl⟩

theorem sameLine (loaded : Database.Loaded given constants db) (made : Synthesized db options l)
    (defines : e.Defines db) (member : c ∈ db.classes) : SameLine db l e c := by
  refine ⟨loaded.climbs member,?_,defines.lineage_eq loaded member⟩
  obtain ⟨t,known,rfl,found⟩ := made.exists_get? member
  obtain ⟨line,here⟩ := exists_line made found
  refine ⟨t,known,?_⟩
  have ancestors : db.ancestors t.decl.name = line.map (·.decl) :=
    here.ancestors_eq made loaded.indexes
  rw [here.hierarchy_eq,ancestors,List.map_map]
  rfl

/-- Between classes that are known the names tell what the ids tell. -/
theorem isSubclass_eq (made : Synthesized db options l) (found : l.byId? t.id = some t)
    {name : String} (known : l.ids[name]? = some i) :
    l.isSubclass t.name name = t.isSubtypeOf i := by
  have self : l.ids[t.name]? = some t.id := made.id_of_found found
  simp [isSubclass,self,known,isSubtype,found]

/-- The chain of a type has the ids of its ancestors and no others. -/
theorem isSubclass_iff (loaded : Database.Loaded given constants db)
    (made : Synthesized db options l) (ma : a ∈ db.classes) (mb : b ∈ db.classes) :
    l.isSubclass a.name b.name = true ↔ b ∈ db.ancestors a.name := by
  obtain ⟨t,knownT,rfl,foundT⟩ := made.exists_get? ma
  obtain ⟨u,knownU,rfl,foundU⟩ := made.exists_get? mb
  obtain ⟨line,here⟩ := exists_line made foundT
  have ancestors : db.ancestors t.decl.name = line.map (·.decl) :=
    here.ancestors_eq made loaded.indexes
  have subclass : l.isSubclass t.decl.name u.decl.name = t.chain.contains u.id :=
    isSubclass_eq made foundT (made.id_of_found foundU)
  rw [subclass,ancestors,here.chain,List.contains_iff_mem,List.mem_map,List.mem_map]
  constructor
  · rintro ⟨v,above,same⟩
    have foundV := here.within v above
    rw [same,foundU] at foundV
    exact ⟨v,above,congrArg _ (Option.some.inj foundV).symm⟩
  · rintro ⟨v,above,same⟩
    have knownV : l.get? v.decl.name = some v :=
      made.get?_eq_some.mpr ⟨rfl,here.within v above⟩
    rw [same,knownU] at knownV
    exact ⟨v,above,congrArg _ (Option.some.inj knownV).symm⟩

theorem sameOrder (loaded : Database.Loaded given constants db) (made : Synthesized db options l)
    (ma : a ∈ db.classes) (mb : b ∈ db.classes) : SameOrder db l a b := by
  refine ⟨isSubclass_iff loaded made ma mb,?_⟩
  rw [loaded.mem_ancestors_iff ma]
  exact loaded.given_indexes.assignable_object_iff loaded.acceptable.acyclic
    (loaded.mem_iff.mp ma) (loaded.mem_iff.mp mb)

/-- Over a loaded database and an engine that defines its classes there is one inheritance
relation: one line above each class, one order of the classes with the root on top, and ids that
go along with it. -/
theorem one_inheritance_relation (loaded : Database.ofClasses given constants = .ok db)
    (defines : e.Defines db) (options : Options) :
    ∃ l, ofDatabase db options = .ok l ∧ Database.validate given = .ok db.index ∧
      (∀ c ∈ db.classes, c.parent = none ↔ c = db.root) ∧
      (∀ c ∈ db.classes, SameLine db l e c) ∧
      (∀ a ∈ db.classes, ∀ b ∈ db.classes, SameOrder db l a b) ∧
      Database.TreeOrder db.classes (fun a b => b ∈ db.ancestors a.name) db.root ∧
      Numbered db l := by
  have facts := Database.loaded_of_ok loaded
  obtain ⟨l,run,made⟩ := ofDatabase_ok facts options
  exact ⟨l,run,facts.validated,fun _ => facts.root_iff,fun _ => sameLine facts made defines,
    fun _ ma _ mb => sameOrder facts made ma mb,facts.treeOrder,numbered made⟩

/-- Children before their parents. -/
def downwards : List ClassDecl :=
  [{ name := "Sprite", parent := some "Node" },{ name := "Node", parent := some "Object" },
   { name := "Panel", parent := some "Object" },{ name := "Object" }]

/-- An engine with a class that the database does not have. -/
def defining : Engine :=
  ((((({} : Engine).defineClass "Object" none).defineClass "Node" (some "Object")).defineClass
    "Sprite" (some "Node")).defineClass "Panel" (some "Object")).defineClass "Editor" (some "Panel")

theorem sprite_line : ∃ db l, Database.ofClasses downwards ∅ = .ok db ∧
    ofDatabase db {} = .ok l ∧ (∀ c ∈ db.classes, SameLine db l defining c) ∧
    defining.lineage "Sprite" = ["Sprite","Node","Object"] := by
  obtain ⟨db,loaded,classes⟩ : ∃ db, Database.ofClasses downwards ∅ = .ok db ∧
      db.classes.map (fun c => (c.name,c.parent)) = [("Object",none),("Node",some "Object"),
        ("Sprite",some "Node"),("Panel",some "Object")] := ⟨_,rfl,rfl⟩
  have defines : defining.Defines db := by
    intro c member
    have listed : (c.name,c.parent) ∈ db.classes.map (fun c => (c.name,c.parent)) :=
      List.mem_map_of_mem member
    simp only [classes,List.mem_cons,Prod.mk.injEq,List.not_mem_nil,or_false] at listed
    rcases listed with ⟨named,parent⟩ | ⟨named,parent⟩ | ⟨named,parent⟩ | ⟨named,parent⟩
    all_goals
      rw [named,parent]
      exact ⟨_,rfl,rfl⟩
  obtain ⟨l,run,_,_,lines,_⟩ := one_inheritance_relation loaded defines {}
  exact ⟨db,l,loaded,run,lines,rfl⟩

end ObjectBridge.Lattice
