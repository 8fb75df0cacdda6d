import ObjectBridge.Lattice
import ObjectBridge.Proofs.Database.Acceptance
import ObjectBridge.Proofs.Lattice.Binding

/-! Synthesis. Types are made in the stored order of the classes, so the type of a parent is there
when a child needs it; a step appends one type, which the steps after it leave alone, and no step
fails on a loaded database. -/
namespace ObjectBridge.Lattice

variable {ids : NameMap ClassId} {options : Options} {types : Array TypeInfo}
  {classes done rest : List ClassDecl} {c : ClassDecl} {i : ClassId} {t : TypeInfo}

/-- Names and places of classes determine each other. -/
theorem assignIds_eq_some (distinct : (classes.map (·.name)).Nodup) {name : String} :
    (assignIds classes)[name]? = some i ↔ ∃ c, classes[i]? = some c ∧ c.name = name := by
  have shape : assignIds classes =
      NameMap.ofPairs (classes.zipIdx.map fun place => (place.1.name,place.2)) := rfl
  have listed (i : ClassId) : (name,i) ∈ classes.zipIdx.map (fun place => (place.1.name,place.2)) ↔
      ∃ c, classes[i]? = some c ∧ c.name = name := by
    rw [List.mem_map]
    constructor
    · rintro ⟨⟨c,j⟩,member,same⟩
      obtain ⟨rfl,rfl⟩ := Prod.mk.inj same
      exact ⟨c,List.mem_zipIdx_iff_getElem?.mp member,rfl⟩
    · rintro ⟨c,found,rfl⟩
      exact ⟨(c,i),List.mem_zipIdx_iff_getElem?.mpr found,rfl⟩
  rw [shape,NameMap.ofPairs_eq_some ?_,listed]
  intro i j first second
  obtain ⟨c,found,named⟩ := (listed i).mp first
  obtain ⟨d,also,same⟩ := (listed j).mp second
  have inside : i < (classes.map (·.name)).length := by
    rw [List.length_map]
    exact (List.getElem?_eq_some_iff.mp found).1
  apply (List.getElem?_inj inside distinct).mp
  rw [List.getElem?_map,List.getElem?_map,found,also,Option.map_some,Option.map_some,named,same]

/-- What stands at a place: a root has its own members alone, another class those of its parent,
whose type stands before it, with its own over them. -/
inductive TypeAt (ids : NameMap ClassId) (options : Options) (types : Array TypeInfo)
    (i : ClassId) : TypeInfo → Prop where
  | root : decl.parent = none → Bind.table ids options decl = .ok own →
      TypeAt ids options types i
        { id := i, decl, parent := none, chain := [i], own, members := own }
  | child {p : TypeInfo} : decl.parent = some p.name → p.id < i →
      types[p.id]? = some p → Bind.table ids options decl = .ok own →
      TypeAt ids options types i
        { id := i, decl, parent := some p.id, chain := i :: p.chain, own
          members := p.members.overlay own }

namespace TypeAt

theorem id_eq (made : TypeAt ids options types i t) : t.id = i := by
  cases made <;> rfl

theorem table (made : TypeAt ids options types i t) :
    Bind.table ids options t.decl = .ok t.own := by
  cases made with
  | root _ bound => exact bound
  | child _ _ _ bound => exact bound

theorem push {u : TypeInfo} (made : TypeAt ids options types i t) :
    TypeAt ids options (types.push u) i t := by
  cases made with
  | root parent bound => exact .root parent bound
  | child parent before found bound =>
    refine .child parent before ?_ bound
    have inside := (Array.getElem?_eq_some_iff.mp found).1
    rwa [Array.getElem?_push,if_neg (Nat.ne_of_lt inside)]

end TypeAt

/-- Types made so far, one for each class in the same order. -/
structure Built (ids : NameMap ClassId) (options : Options) (classes : List ClassDecl)
    (types : Array TypeInfo) : Prop where
  decls : types.toList.map (·.decl) = classes
  places : ∀ i t, types[i]? = some t → TypeAt ids options types i t

namespace Built

theorem empty : Built ids options [] #[] := ⟨rfl,by simp⟩

theorem place_iff (built : Built ids options classes types) :
    classes[i]? = some c ↔ ∃ t, types[i]? = some t ∧ t.decl = c := by
  rw [← built.decls,List.getElem?_map,Array.getElem?_toList,Option.map_eq_some_iff]

theorem size_eq (built : Built ids options classes types) : types.size = classes.length := by
  rw [← built.decls,List.length_map,Array.length_toList]

theorem push (built : Built ids options done types)
    (made : TypeAt ids options types types.size t) :
    Built ids options (done ++ [t.decl]) (types.push t) := by
  constructor
  · rw [Array.toList_push,List.map_append,built.decls,List.map_singleton]
  · intro i u found
    rw [Array.getElem?_push] at found
    split at found
    · rename_i last
      obtain rfl := Option.some.inj found
      exact last ▸ made.push
    · exact (built.places i u found).push

end Built

/-- What synthesis relies on: ids are places, parents come first and own tables can be made. -/
structure Ready (ids : NameMap ClassId) (options : Options) (classes : List ClassDecl) : Prop where
  ids_iff : ∀ (name : String) (i : ClassId),
    ids[name]? = some i ↔ ∃ c, classes[i]? = some c ∧ c.name = name
  parentsFirst : ParentsFirst classes
  tables : ∀ c ∈ classes, ∃ own, Bind.table ids options c = .ok own

/-- The type of the next class can be made, as its parent is already there. -/
theorem typeOf_ok (ready : Ready ids options classes) (shape : classes = done ++ c :: rest)
    (built : Built ids options done types) :
    ∃ t, typeOf ids options types c = .ok t ∧ t.decl = c ∧
      TypeAt ids options types types.size t := by
  obtain ⟨own,bound⟩ := ready.tables c (by simp [shape])
  cases parent : c.parent with
  | none =>
    refine ⟨_,?_,rfl,.root parent bound⟩
    simp [typeOf,parentType,parent,bound]
    rfl
  | some name =>
    obtain ⟨p,mp,rfl⟩ := ready.parentsFirst done c rest shape name parent
    obtain ⟨j,place⟩ := List.mem_iff_getElem?.mp mp
    have inside : j < done.length := (List.getElem?_eq_some_iff.mp place).1
    have given : ids[p.name]? = some j :=
      (ready.ids_iff p.name j).mpr ⟨p,by rw [shape,List.getElem?_append_left inside,place],rfl⟩
    obtain ⟨u,found,rfl⟩ := built.place_iff.mp place
    obtain rfl := (built.places j u found).id_eq
    refine ⟨_,?_,rfl,.child parent (built.size_eq ▸ inside) found bound⟩
    simp [typeOf,parentType,parent,given,found,bound]
    rfl

theorem addTypes_ok (ready : Ready ids options classes) (shape : classes = done ++ rest)
    (built : Built ids options done types) :
    ∃ all, rest.foldlM (addType ids options) types = .ok all ∧
      Built ids options classes all := by
  induction rest generalizing done types with
  | nil => exact ⟨types,rfl,by simpa [shape] using built⟩
  | cons c rest ih =>
    obtain ⟨t,made,rfl,place⟩ := typeOf_ok ready shape built
    obtain ⟨all,run,full⟩ := ih (by rw [shape,List.append_cons]) (built.push place)
    refine ⟨all,?_,full⟩
    rw [List.foldlM_cons]
    exact bind_eq_ok.mpr ⟨types.push t,by simp [addType,made],run⟩

/-- A lattice that stands for a database. -/
structure Synthesized (db : Database) (options : Options) (l : Lattice) : Prop where
  ids_iff : ∀ (name : String) (i : ClassId),
    l.ids[name]? = some i ↔ ∃ c, db.classes[i]? = some c ∧ c.name = name
  built : Built l.ids options db.classes l.types

section Loaded

variable {given : List ClassDecl} {constants : NameMap Int64} {db : Database}

theorem ready_of_loaded (loaded : Database.Loaded given constants db) (options : Options) :
    Ready (assignIds db.classes) options db.classes := by
  have ids_iff (name : String) (i : ClassId) : (assignIds db.classes)[name]? = some i ↔
      ∃ c, db.classes[i]? = some c ∧ c.name = name := assignIds_eq_some loaded.indexes.distinct
  refine ⟨ids_iff,loaded.parentsFirst,?_⟩
  intro c member
  have among : c ∈ given := loaded.perm.mem_iff.mp member
  refine Bind.exists_table ?_ (loaded.acceptable.members c among)
  intro d md
  obtain ⟨j,place⟩ := List.mem_iff_getElem?.mp (loaded.perm.mem_iff.mpr md)
  exact ⟨j,(ids_iff d.name j).mpr ⟨d,place,rfl⟩⟩

/-- Synthesis succeeds on a loaded database, whatever the options are. -/
theorem ofDatabase_ok (loaded : Database.Loaded given constants db) (options : Options) :
    ∃ l, ofDatabase db options = .ok l ∧ Synthesized db options l := by
  have ready := ready_of_loaded loaded options
  obtain ⟨types,run,built⟩ := addTypes_ok ready (List.nil_append _).symm Built.empty
  have nonempty : 0 < types.size := by
    rw [built.size_eq]
    exact List.length_pos_iff.mpr db.nonempty
  refine ⟨{ types, ids := assignIds db.classes, nonempty },?_,ready.ids_iff,built⟩
  refine bind_eq_ok.mpr ⟨types,run,?_⟩
  rw [dif_pos nonempty]
  rfl

theorem synthesized_of_ok {l : Lattice} (loaded : Database.Loaded given constants db)
    (run : ofDatabase db options = .ok l) : Synthesized db options l := by
  obtain ⟨made,also,synthesized⟩ := ofDatabase_ok loaded options
  exact Except.ok.inj (also.symm.trans run) ▸ synthesized

end Loaded

namespace Synthesized

variable {db : Database} {l : Lattice} {name : String}

theorem id_eq (made : Synthesized db options l) (found : l.byId? i = some t) : t.id = i :=
  (made.built.places i t found).id_eq

theorem decl_mem (made : Synthesized db options l) (found : l.byId? i = some t) :
    t.decl ∈ db.classes :=
  List.mem_of_getElem? (made.built.place_iff.mpr ⟨t,found,rfl⟩)

theorem id_of_found (made : Synthesized db options l) (found : l.byId? i = some t) :
    l.ids[t.name]? = some i :=
  (made.ids_iff _ _).mpr ⟨t.decl,made.built.place_iff.mpr ⟨t,found,rfl⟩,rfl⟩

theorem exists_place (member : t ∈ l.types.toList) : ∃ i, l.byId? i = some t := by
  obtain ⟨i,place⟩ := List.mem_iff_getElem?.mp member
  rw [Array.getElem?_toList] at place
  exact ⟨i,place⟩

/-- What can be read off the types, if it can be read off their classes. -/
theorem map_types (made : Synthesized db options l) {f : TypeInfo → α} {g : ClassDecl → α}
    (each : ∀ i t, l.byId? i = some t → f t = g t.decl) :
    l.types.toList.map f = db.classes.map g := by
  rw [← made.built.decls,List.map_map]
  apply List.map_congr_left
  intro t member
  obtain ⟨i,found⟩ := exists_place member
  exact each i t found

/-- A type is found under its own name and under its own id. -/
theorem get?_eq_some (made : Synthesized db options l) :
    l.get? name = some t ↔ t.name = name ∧ l.byId? t.id = some t := by
  rw [get?,Option.bind_eq_some_iff]
  constructor
  · rintro ⟨i,given,found⟩
    obtain ⟨c,place,rfl⟩ := (made.ids_iff name i).mp given
    obtain ⟨u,also,rfl⟩ := made.built.place_iff.mp place
    obtain rfl := Option.some.inj (also.symm.trans found)
    exact ⟨rfl,by rwa [made.id_eq found]⟩
  · rintro ⟨rfl,found⟩
    exact ⟨t.id,made.id_of_found found,found⟩

theorem exists_get? (made : Synthesized db options l) (member : c ∈ db.classes) :
    ∃ t, l.get? c.name = some t ∧ t.decl = c ∧ l.byId? t.id = some t := by
  obtain ⟨i,place⟩ := List.mem_iff_getElem?.mp member
  obtain ⟨t,found,rfl⟩ := made.built.place_iff.mp place
  have own : l.byId? t.id = some t := by rwa [made.id_eq found]
  exact ⟨t,made.get?_eq_some.mpr ⟨rfl,own⟩,rfl,own⟩

/-- The first type is that of the root. -/
theorem root_decl (made : Synthesized db options l) : l.root.decl = db.root := by
  have first : l.types[0]? = some l.root := Array.getElem?_eq_getElem l.nonempty
  have place := made.built.place_iff.mpr ⟨l.root,first,rfl⟩
  rw [← List.head?_eq_getElem?,List.head?_eq_some_head db.nonempty] at place
  exact (Option.some.inj place).symm

/-- A name has a type exactly if it has a class in the database. -/
theorem get?_decl {given : List ClassDecl} {constants : NameMap Int64}
    (made : Synthesized db options l) (loaded : Database.Loaded given constants db)
    (name : String) : (l.get? name).map (·.decl) = db.get? name := by
  cases known : db.get? name with
  | some c =>
    obtain ⟨member,rfl⟩ := (loaded.indexes.get name c).mp known
    obtain ⟨t,found,rfl,_⟩ := made.exists_get? member
    rw [found,Option.map_some]
  | none =>
    cases found : l.get? name with
    | none => rfl
    | some t =>
      obtain ⟨rfl,place⟩ := made.get?_eq_some.mp found
      have self : db.get? t.name = some t.decl := loaded.indexes.self (made.decl_mem place)
      rw [known] at self
      cases self

end Synthesized
end ObjectBridge.Lattice
