import ObjectBridge.Proofs.Database.Ancestors
import ObjectBridge.Proofs.Lattice.Chain

/-! Resolution of members. The table of a type is a copy of its parent's with its own members put
over it; here it is shown to answer like a walk along the ancestors, which stops at the first
class that declares the name. -/
namespace ObjectBridge.Lattice

/-- The coercion of a tag. A named class is denoted by the id of the type of that name. -/
inductive Denotes (l : Lattice) : Tag → Coercion → Prop where
  | nil : Denotes l .nil .discard
  | bool : Denotes l .bool .bool
  | int : Denotes l .int .int
  | float : Denotes l .float .float
  | string : Denotes l .string .string
  | object : Denotes l (.object none) (.object none)
  | named {id : ClassId} {t : TypeInfo} : l.byId? id = some t →
      Denotes l (.object (some t.name)) (.object (some id))
  | variant : Denotes l .variant .any

/-- Properties are kept under their own names. -/
def Keyed (classes : List ClassDecl) : Prop :=
  ∀ c ∈ classes, ∀ (name : String) (p : PropertyDecl), c.properties[name]? = some p → p.name = name

def ownMember? (l : Lattice) (name : String) (c : ClassDecl) : Option Member :=
  (l.get? c.name).bind (·.own[name]?)

/-- What a name means on a type. -/
structure Resolves (db : Database) (options : Options) (l : Lattice) (t : TypeInfo)
    (name : String) : Prop where
  own : Option.Rel (Binds (Denotes l) t.name name) (t.decl.declares? options name) t.own[name]?
  walk : t.member? name = (db.ancestors t.name).findSome? (l.ownMember? name)
  bound : ∀ m, t.member? name = some m → ∃ owner declared,
    Nearest db.classes (·.declares? options name) t.decl owner declared ∧
    m.owner = owner.name ∧ Binds (Denotes l) owner.name name declared m
  unbound : t.member? name = none → ∀ c, Relation.ReflTransGen (Parent db.classes) t.decl c →
    c.declares? options name = none

variable {db : Database} {options : Options} {l : Lattice} {t : TypeInfo} {i : ClassId}
  {given : List ClassDecl} {constants : NameMap Int64}

theorem denotes_of_ofTag? (made : Synthesized db options l) {tag : Tag} {coercion : Coercion}
    (found : Coercion.ofTag? l.ids tag = some coercion) : Denotes l tag coercion := by
  cases tag with
  | object cls =>
    cases cls with
    | none =>
      obtain rfl := Option.some.inj found
      exact .object
    | some cls =>
      obtain ⟨id,known,rfl⟩ := Option.map_eq_some_iff.mp found
      obtain ⟨c,place,rfl⟩ := (made.ids_iff cls id).mp known
      obtain ⟨t,there,rfl⟩ := made.built.place_iff.mp place
      exact .named there
  | nil => obtain rfl := Option.some.inj found; exact .nil
  | bool => obtain rfl := Option.some.inj found; exact .bool
  | int => obtain rfl := Option.some.inj found; exact .int
  | float => obtain rfl := Option.some.inj found; exact .float
  | string => obtain rfl := Option.some.inj found; exact .string
  | variant => obtain rfl := Option.some.inj found; exact .variant

theorem own_declares (loaded : Database.Loaded given constants db) (keyed : Keyed db.classes)
    (made : Synthesized db options l) (found : l.byId? i = some t) (name : String) :
    Option.Rel (Binds (Denotes l) t.name name) (t.decl.declares? options name) t.own[name]? := by
  have member := made.decl_mem found
  have distinct := (loaded.acceptable.members t.decl (loaded.perm.mem_iff.mp member)).distinct
  have raw := Bind.table_declares (made.built.places i t found).table distinct
    (keyed t.decl member) name
  exact rel_imp (fun _ _ => Binds.mono fun _ _ => denotes_of_ofTag? made) raw

/-- On every class of the database, what its type has of its own is what it declares. -/
theorem ownMember?_declares (loaded : Database.Loaded given constants db)
    (keyed : Keyed db.classes) (made : Synthesized db options l) (name : String) :
    ∀ c ∈ db.classes, Option.Rel (Binds (Denotes l) c.name name) (c.declares? options name)
      (l.ownMember? name c) := by
  intro c member
  obtain ⟨t,known,rfl,found⟩ := made.exists_get? member
  rw [ownMember?,known]
  exact own_declares loaded keyed made found name

/-- The own tables along a line answer as the classes on it are asked in turn. -/
theorem member?_eq_walk (loaded : Database.Loaded given constants db)
    (made : Synthesized db options l) (found : l.byId? i = some t) (name : String) :
    t.member? name = (db.ancestors t.name).findSome? (l.ownMember? name) := by
  obtain ⟨line,here⟩ := exists_line made found
  have same (a : TypeInfo) (member : a ∈ line) :
      a.own[name]? = (l.ownMember? name ∘ (·.decl)) a := by
    have known : l.get? a.decl.name = some a :=
      made.get?_eq_some.mpr ⟨rfl,here.within a member⟩
    simp [ownMember?,known]
  rw [here.members,here.ancestors_eq made loaded.indexes,List.findSome?_map,
    ← List.head?_filterMap,← List.head?_filterMap,List.filterMap_congr same]

theorem resolves (loaded : Database.Loaded given constants db) (keyed : Keyed db.classes)
    (made : Synthesized db options l) (found : l.byId? i = some t) (name : String) :
    Resolves db options l t name := by
  have member : t.decl ∈ db.classes := made.decl_mem found
  have walk := member?_eq_walk loaded made found name
  have answers := ownMember?_declares loaded keyed made name
  refine ⟨own_declares loaded keyed made found name,walk,?_,?_⟩
  · intro m bound
    obtain ⟨owner,declared,first,binds⟩ :=
      loaded.nearest_of_walk member answers (walk.symm.trans bound)
    exact ⟨owner,declared,first,binds.owner_eq,binds⟩
  · intro unbound c above
    exact loaded.none_of_walk member answers (walk.symm.trans unbound) above

/-- On a loaded database every name means, on every class, what the first class that declares it
among the class and its ancestors declares; where none does it means nothing. -/
theorem members_resolve_to_nearest (loaded : Database.ofClasses given constants = .ok db)
    (keyed : Keyed db.classes) (options : Options) :
    ∃ l, ofDatabase db options = .ok l ∧
      ∀ c ∈ db.classes, ∃ t, l.get? c.name = some t ∧ t.decl = c ∧
        ∀ name, Resolves db options l t name := by
  have facts := Database.loaded_of_ok loaded
  obtain ⟨l,run,made⟩ := ofDatabase_ok facts options
  refine ⟨l,run,?_⟩
  intro c member
  obtain ⟨t,known,same,found⟩ := made.exists_get? member
  exact ⟨t,known,same,resolves facts keyed made found⟩

/-- The private method of the child has the name of a constant of its parent, and the signal of the
child that of a property of its parent. -/
def shadowing : List ClassDecl :=
  [{ name := "Node", parent := some "Object", signals := ["extent"]
     methods := [{ name := "_limit" },{ name := "owner", returns := .object (some "Object") }] },
   { name := "Object", constants := NameMap.ofPairs [("_limit",3)]
     properties := NameMap.ofPairs [("extent",{ name := "extent", tag := .int, getter := "size" })]
     methods := [{ name := "size", returns := .int }] }]

theorem private_method_shadows_nothing :
    ∃ db l t, Database.ofClasses shadowing ∅ = .ok db ∧ ofDatabase db {} = .ok l ∧
      l.get? "Node" = some t ∧ (∀ name, Resolves db {} l t name) ∧
      t.member? "_limit" = some (.constant "Object" "_limit" 3) ∧
      t.member? "extent" = some (.signal "Node" "extent") := by
  obtain ⟨db,loaded,classes⟩ : ∃ db, Database.ofClasses shadowing ∅ = .ok db ∧
      db.classes = shadowing.reverse := ⟨_,rfl,rfl⟩
  have keyed : Keyed db.classes := by
    intro c member name p found
    rw [classes] at member
    rcases List.mem_cons.mp member with rfl | member
    · rw [NameMap.ofPairs_getElem?] at found
      have listed := NameMap.mem_of_lookup found
      simp_all
    · obtain rfl := List.mem_singleton.mp member
      simp at found
  obtain ⟨l,run,all⟩ := members_resolve_to_nearest loaded keyed {}
  obtain ⟨c,member,named⟩ : ∃ c ∈ db.classes, c.name = "Node" := by simp [classes,shadowing]
  obtain ⟨t,known,_,meanings⟩ := all c member
  rw [named] at known
  have computed : (Database.ofClasses shadowing ∅ >>= fun db => ofDatabase db {} >>= fun l =>
      .ok ((l.get? "Node").map fun t => (t.member? "_limit",t.member? "extent"))) =
      .ok (some (some (.constant "Object" "_limit" 3),some (.signal "Node" "extent"))) := rfl
  simp only [loaded,run,known,bind,Except.bind,Option.map_some,Except.ok.injEq,Option.some.injEq,
    Prod.mk.injEq] at computed
  exact ⟨db,l,t,loaded,run,known,meanings,computed⟩

end ObjectBridge.Lattice
