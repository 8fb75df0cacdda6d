import ObjectBridge.Proofs.Database.Permutation
import ObjectBridge.Proofs.Lattice.Inheritance
import ObjectBridge.Proofs.Lattice.Resolution

/-! Lattices of the same classes declared in different orders. A class may have another id in each
of them, and with it every coercion, chain and table; read by names they are the same. -/
namespace ObjectBridge

/-- One member of one class, bound with coercions that are the same in the given sense. -/
inductive SameMember (same : Coercion → Coercion → Prop) : Member → Member → Prop where
  | method : List.Forall₂ same params params' → same returns returns' →
      SameMember same (.method ⟨owner,m,params,returns⟩) (.method ⟨owner,m,params',returns'⟩)
  | property : same coercion coercion' →
      SameMember same (.property ⟨owner,p,coercion⟩) (.property ⟨owner,p,coercion'⟩)
  | constant : SameMember same (.constant owner name value) (.constant owner name value)
  | signal : SameMember same (.signal owner name) (.signal owner name)

namespace Bind

variable {ids ids' : NameMap ClassId} {options : Options} {c : ClassDecl} {own own' : MemberTable}
  {same : Coercion → Coercion → Prop}

/-- Binding a class with other ids changes nothing in its table but coercions. -/
theorem table_same (agree : ∀ tag a b, Coercion.ofTag? ids tag = some a →
      Coercion.ofTag? ids' tag = some b → same a b)
    (run : table ids options c = .ok own) (run' : table ids' options c = .ok own')
    (name : String) : Option.Rel (SameMember same) own[name]? own'[name]? := by
  obtain ⟨methods,properties,first,second,rfl⟩ := table_eq_ok.mp run
  obtain ⟨methods',properties',first',second',rfl⟩ := table_eq_ok.mp run'
  have methodsSame : List.Forall₂ (fun m m' => m.decl.name = m'.decl.name ∧
      SameMember same (.method m) (.method m')) methods methods' := by
    refine forall₂_of_common ?_ (mapM_eq_ok.mp first) (mapM_eq_ok.mp first')
    intro m bound bound' made made'
    obtain ⟨params,returns,all,last,rfl⟩ := method_eq_ok.mp made
    obtain ⟨params',returns',all',last',rfl⟩ := method_eq_ok.mp made'
    exact ⟨rfl,.method (forall₂_of_common agree all all') (agree _ _ _ last last')⟩
  have propertiesSame : List.Forall₂ (fun p p' => p.decl.name = p'.decl.name ∧
      SameMember same (.property p) (.property p')) properties properties' := by
    refine forall₂_of_common ?_ (mapM_eq_ok.mp second) (mapM_eq_ok.mp second')
    intro p bound bound' made made'
    obtain ⟨a,found,rfl⟩ := property_eq_ok.mp made
    obtain ⟨b,found',rfl⟩ := property_eq_ok.mp made'
    exact ⟨rfl,.property (agree _ _ _ found found')⟩
  apply NameMap.ofPairs_rel
  -- the four parts of the list of pairs, one after another
  refine List.rel_append (List.rel_append (List.rel_append ?_ ?_) ?_) ?_
  all_goals rw [List.forall₂_map_left_iff,List.forall₂_map_right_iff]
  · exact methodsSame
  · exact propertiesSame
  · exact List.forall₂_same.mpr fun _ _ => ⟨rfl,.signal⟩
  · exact List.forall₂_same.mpr fun _ _ => ⟨rfl,.constant⟩

end Bind

namespace Lattice

/-- The ids of two types of one name, each in its own lattice. -/
def SameClass (l l' : Lattice) (i j : ClassId) : Prop :=
  ∃ t u, l.byId? i = some t ∧ l'.byId? j = some u ∧ t.name = u.name

/-- Coercions of one tag: where one has the id of a class, the other has its own id of it. -/
def SameCoercion (l l' : Lattice) (a b : Coercion) : Prop :=
  ∃ tag, Denotes l tag a ∧ Denotes l' tag b

/-- The same names, and under each of them the same member. -/
def SameTable (l l' : Lattice) (table other : MemberTable) : Prop :=
  ∀ name : String, Option.Rel (SameMember (SameCoercion l l')) table[name]? other[name]?

/-- Types of one class, each in its own lattice. -/
structure SameType (l l' : Lattice) (t u : TypeInfo) : Prop where
  decl : t.decl = u.decl
  parent : Option.Rel (SameClass l l') t.parent u.parent
  chain : List.Forall₂ (SameClass l l') t.chain u.chain
  own : SameTable l l' t.own u.own
  members : SameTable l l' t.members u.members

/-- Lattices that differ only in the ids of their types. -/
structure Isomorphic (l l' : Lattice) : Prop where
  names : (l.types.toList.map (·.name)).Perm (l'.types.toList.map (·.name))
  types : ∀ name, Option.Rel (SameType l l') (l.get? name) (l'.get? name)

variable {db db' : Database} {options : Options} {l l' : Lattice} {t u : TypeInfo}
  {i j : ClassId} {line line' : List TypeInfo}

theorem ofTag?_same (made : Synthesized db options l) (made' : Synthesized db' options l')
    (tag : Tag) (a b : Coercion) (found : Coercion.ofTag? l.ids tag = some a)
    (found' : Coercion.ofTag? l'.ids tag = some b) : SameCoercion l l' a b :=
  ⟨tag,denotes_of_ofTag? made found,denotes_of_ofTag? made' found'⟩

theorem own_same (made : Synthesized db options l) (made' : Synthesized db' options l')
    (found : l.byId? i = some t) (found' : l'.byId? j = some u) (decl : t.decl = u.decl) :
    SameTable l l' t.own u.own := by
  have bound : Bind.table l.ids options t.decl = .ok t.own := (made.built.places i t found).table
  have bound' : Bind.table l'.ids options u.decl = .ok u.own :=
    (made'.built.places j u found').table
  rw [← decl] at bound'
  exact Bind.table_same (ofTag?_same made made') bound bound'

theorem parent_same (made : Synthesized db options l) (made' : Synthesized db' options l')
    (found : l.byId? i = some t) (found' : l'.byId? j = some u) (decl : t.decl = u.decl) :
    Option.Rel (SameClass l l') t.parent u.parent := by
  cases parent : t.decl.parent with
  | none =>
    rw [(numbered made).root i t found parent,
      (numbered made').root j u found' (decl ▸ parent)]
    exact .none
  | some name =>
    obtain ⟨p,above,_,there,rfl⟩ := (numbered made).child i t found name parent
    obtain ⟨q,above',_,there',named⟩ := (numbered made').child j u found' _ (decl ▸ parent)
    rw [above,above']
    exact .some ⟨p,q,there,there',named.symm⟩

/-- Searches along related lists find related answers. -/
theorem findSome?_rel {R : α → β → Prop} {S : γ → δ → Prop} {f : α → Option γ}
    {g : β → Option δ} {as : List α} {bs : List β}
    (each : ∀ a b, R a b → Option.Rel S (f a) (g b)) (related : List.Forall₂ R as bs) :
    Option.Rel S (as.findSome? f) (bs.findSome? g) := by
  induction related with
  | nil => exact .none
  | @cons a b as bs head _ ih =>
    have here := each a b head
    rw [List.findSome?_cons,List.findSome?_cons]
    cases found : f a with
    | none =>
      cases found' : g b with
      | none => exact ih
      | some _ => rw [found,found'] at here; cases here
    | some _ =>
      cases found' : g b with
      | none => rw [found,found'] at here; cases here
      | some _ => rwa [found,found'] at here

/-- Lists with equal images go along with each other, place by place. -/
theorem forall₂_of_map_eq {f : α → γ} {g : β → γ} {as : List α} {bs : List β}
    (same : as.map f = bs.map g) : List.Forall₂ (fun a b => a ∈ as ∧ b ∈ bs ∧ f a = g b) as bs := by
  have equal : List.Forall₂ (fun a b => f a = g b) as bs := by
    rw [← List.forall₂_map_right_iff,← List.forall₂_map_left_iff,List.forall₂_eq_eq_eq]
    exact same
  obtain ⟨length,each⟩ := List.forall₂_iff_zip.mp equal
  refine List.forall₂_iff_zip.mpr ⟨length,?_⟩
  intro a b paired
  obtain ⟨ma,mb⟩ := List.of_mem_zip paired
  exact ⟨ma,mb,each paired⟩

theorem line_same (made : Synthesized db options l) (made' : Synthesized db' options l')
    (indexes : Indexes db.index db.classes) (indexes' : Indexes db'.index db'.classes)
    (index : db.index = db'.index) (here : Line l t line) (here' : Line l' u line')
    (decl : t.decl = u.decl) :
    List.Forall₂ (fun a b => l.byId? a.id = some a ∧ l'.byId? b.id = some b ∧ a.decl = b.decl)
      line line' := by
  have ancestors : db.ancestors t.name = db'.ancestors u.name := by
    have name : t.name = u.name := congrArg ClassDecl.name decl
    rw [name,Database.ancestors,Database.ancestors,Database.get?,Database.get?,index]
  rw [here.ancestors_eq made indexes,here'.ancestors_eq made' indexes'] at ancestors
  refine (forall₂_of_map_eq ancestors).imp ?_
  rintro a b ⟨ma,mb,same⟩
  exact ⟨here.within a ma,here'.within b mb,same⟩

/-- Types of one class are the same, whatever their ids. -/
theorem sameType (made : Synthesized db options l) (made' : Synthesized db' options l')
    (indexes : Indexes db.index db.classes) (indexes' : Indexes db'.index db'.classes)
    (index : db.index = db'.index) (found : l.byId? i = some t) (found' : l'.byId? j = some u)
    (decl : t.decl = u.decl) : SameType l l' t u := by
  obtain ⟨line,here⟩ := exists_line made found
  obtain ⟨line',here'⟩ := exists_line made' found'
  have lines := line_same made made' indexes indexes' index here here' decl
  refine ⟨decl,parent_same made made' found found' decl,?_,own_same made made' found found' decl,
    ?_⟩
  · rw [here.chain,here'.chain,List.forall₂_map_left_iff,List.forall₂_map_right_iff]
    exact lines.imp fun a b ⟨there,there',same⟩ =>
      ⟨a,b,there,there',congrArg ClassDecl.name same⟩
  · intro name
    have table : t.members[name]? = line.findSome? (·.own[name]?) := here.members name
    have table' : u.members[name]? = line'.findSome? (·.own[name]?) := here'.members name
    rw [table,table']
    exact findSome?_rel
      (fun a b ⟨there,there',same⟩ => own_same made made' there there' same name) lines

section Permuted

variable {given given' : List ClassDecl} {constants : NameMap Int64}

theorem isomorphic (loaded : Database.Loaded given constants db)
    (loaded' : Database.Loaded given' constants db') (same : given.Perm given')
    (made : Synthesized db options l) (made' : Synthesized db' options l') :
    Isomorphic l l' := by
  have classes : db.classes.Perm db'.classes :=
    loaded.perm.trans (same.trans loaded'.perm.symm)
  have index : db.index = db'.index :=
    (loaded.indexes.perm classes).unique loaded'.indexes
  have listed : l.types.toList.map (·.name) = db.classes.map (·.name) := by
    rw [← made.built.decls,List.map_map]
    rfl
  have listed' : l'.types.toList.map (·.name) = db'.classes.map (·.name) := by
    rw [← made'.built.decls,List.map_map]
    rfl
  refine ⟨by rw [listed,listed']; exact classes.map _,?_⟩
  intro name
  cases known : l.get? name with
  | some t =>
    obtain ⟨rfl,found⟩ := made.get?_eq_some.mp known
    have member := classes.mem_iff.mp (made.decl_mem found)
    obtain ⟨u,known',decl,found'⟩ := made'.exists_get? member
    have named : l'.get? t.name = some u := known'
    rw [named]
    exact .some (sameType made made' loaded.indexes loaded'.indexes index found found' decl.symm)
  | none =>
    cases known' : l'.get? name with
    | none => exact .none
    | some u =>
      obtain ⟨rfl,found'⟩ := made'.get?_eq_some.mp known'
      have member := classes.mem_iff.mpr (made'.decl_mem found')
      obtain ⟨t,named,_,_⟩ := made.exists_get? member
      have named : l.get? u.name = some t := named
      rw [named] at known
      cases known

/-- The order of declarations plays no part: permuted classes are refused by the same check, or
they load, and their lattices differ only in ids. -/
theorem declaration_order_immaterial (same : given.Perm given') (constants : NameMap Int64)
    (options : Options) :
    SameOutcome (fun db db' => ∃ l l', ofDatabase db options = .ok l ∧
        ofDatabase db' options = .ok l' ∧ Isomorphic l l')
      (Database.ofClasses given constants) (Database.ofClasses given' constants) := by
  have settles := Database.ofClasses_settles given constants
  have settles' := Database.ofClasses_settles given' constants
  refine settles.sameOutcome settles' same ?_
  intro db db' run run'
  have loaded := Database.loaded_of_ok run
  have loaded' := Database.loaded_of_ok run'
  obtain ⟨l,synthesized,made⟩ := ofDatabase_ok loaded options
  obtain ⟨l',synthesized',made'⟩ := ofDatabase_ok loaded' options
  exact ⟨l,l',synthesized,synthesized',isomorphic loaded loaded' same made made'⟩

/-- A property and a method name classes that are declared beside each other. -/
def siblings : List ClassDecl :=
  [{ name := "Object", methods := [{ name := "owner", returns := .object (some "Node") }] },
   { name := "Node", parent := some "Object" },
   { name := "Panel", parent := some "Object", methods := [{ name := "_theme" }]
     properties := NameMap.ofPairs
       [("focus",{ name := "focus", tag := .object (some "Node"), getter := "owner" })] }]

theorem siblings_swap_ids :
    siblings.Perm siblings.reverse ∧
    ∃ db db' l l', Database.ofClasses siblings ∅ = .ok db ∧
      Database.ofClasses siblings.reverse ∅ = .ok db' ∧ ofDatabase db {} = .ok l ∧
      ofDatabase db' {} = .ok l' ∧ Isomorphic l l' ∧
      l.ids["Node"]? = some 1 ∧ l'.ids["Node"]? = some 2 := by
  have same : siblings.Perm siblings.reverse := (List.reverse_perm _).symm
  refine ⟨same,?_⟩
  obtain ⟨db,loaded⟩ : ∃ db, Database.ofClasses siblings ∅ = .ok db := ⟨_,rfl⟩
  obtain ⟨db',loaded'⟩ : ∃ db, Database.ofClasses siblings.reverse ∅ = .ok db := ⟨_,rfl⟩
  have outcome := declaration_order_immaterial same ∅ {}
  rw [loaded,loaded'] at outcome
  cases outcome with
  | loaded related =>
    obtain ⟨l,l',run,run',isomorphic⟩ := related
    have place : (Database.ofClasses siblings ∅ >>= fun db => ofDatabase db {} >>= fun l =>
        .ok l.ids["Node"]?) = .ok (some 1) := rfl
    have place' : (Database.ofClasses siblings.reverse ∅ >>= fun db => ofDatabase db {} >>=
        fun l => .ok l.ids["Node"]?) = .ok (some 2) := rfl
    simp only [loaded,run,bind,Except.bind,Except.ok.injEq] at place
    simp only [loaded',run',bind,Except.bind,Except.ok.injEq] at place'
    exact ⟨db,db',l,l',loaded,loaded',run,run',isomorphic,place,place'⟩

end Permuted
end Lattice
end ObjectBridge
