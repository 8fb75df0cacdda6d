import ObjectBridge.Bridge.Attribute
import ObjectBridge.Proofs.Database.Ancestors
import ObjectBridge.Proofs.Lattice.Resolution

/-! Exposure. Whether private methods are bound makes no difference to anything else: the same
declarations are bound in the same order, and where a hidden method would have stood, a name means
what it means without it, on the class itself or further up. -/
namespace ObjectBridge

/-- A method of the name is bound only if private methods are exposed. -/
def Private (name : String) : Prop := name.toList.head? = some '_'

theorem MethodDecl.isPrivate_iff {m : MethodDecl} : m.isPrivate = true ↔ Private m.name :=
  beq_iff_eq

/-- The options as they are otherwise. -/
def Options.withPrivate (options : Options) (exposed : Bool) : Options :=
  { options with exposePrivateMethods := exposed }

namespace ClassDecl

/-- The property that a class has under its own name; of several the last one in the order of
keys. -/
def property? (c : ClassDecl) (name : String) : Option PropertyDecl :=
  (NameMap.ofPairs (c.properties.values.map fun p => (p.name,p)))[name]?

/-- What a class declares under a name other than a method. -/
def data? (c : ClassDecl) (name : String) : Option Declaration :=
  (c.constants[name]?.map .constant).or <|
  (if name ∈ c.signals then some .signal else none).or <| (c.property? name).map .property

end ClassDecl

/-- Is this the binding of a private method? -/
def Member.isHidden : Member → Bool
  | .method m => m.decl.isPrivate
  | _ => false

/-- A call under a name that is not a method's fails before anything is done. -/
theorem Context.callMember_fails (ctx : Context σ) {receiver : Wrapper} {name : String}
    (none : ∀ m, receiver.type.member? name ≠ some (.method m)) (args : List Value)
    (world : World σ) : ∃ fault, ctx.callMember receiver name args world = .error fault world := by
  unfold callMember TypeInfo.member
  cases known : receiver.type.member? name with
  | none => exact ⟨_,rfl⟩
  | some m =>
    cases m with
    | method m => exact absurd known (none m)
    | property | constant | signal => exact ⟨_,rfl⟩

namespace Bind

variable {ids : NameMap ClassId} {options : Options} {c : ClassDecl} {own full : MemberTable}
  {name : String}

/-- Hiding private methods takes their pairs from those that make the table. -/
theorem members_withPrivate {hidden exposed : List (String × Member)}
    (less : members ids (options.withPrivate false) c = .ok hidden)
    (more : members ids (options.withPrivate true) c = .ok exposed) :
    hidden = exposed.filter fun pair => !pair.2.isHidden := by
  obtain ⟨some,properties,first,second,rfl⟩ := members_eq_ok.mp less
  obtain ⟨all,others,firstAll,secondAll,rfl⟩ := members_eq_ok.mp more
  obtain rfl := Except.ok.inj (second.symm.trans secondAll)
  have visible : c.methods.filter (isVisible (options.withPrivate true)) = c.methods := by
    simp [isVisible,Options.withPrivate]
  rw [visible] at firstAll
  have filtered : (c.methods.filter (isVisible (options.withPrivate false))).mapM (method ids c) =
      .ok (all.filter fun m => !m.decl.isPrivate) := by
    apply mapM_filter firstAll
    intro m bound made
    obtain ⟨_,_,_,_,rfl⟩ := method_eq_ok.mp made
    simp [isVisible,Options.withPrivate]
  obtain rfl := Except.ok.inj (first.symm.trans filtered)
  simp [List.filter_map,Function.comp_def,Member.isHidden]

/-- A method in an own table stands under its name. -/
theorem table_method (run : table ids options c = .ok own) {m : MethodBinding}
    (found : own[name]? = some (.method m)) :
    m.decl.name = name ∧ isVisible options m.decl = true := by
  cases entered_of_table run found with
  | method _ visible made =>
    obtain ⟨_,_,_,_,rfl⟩ := method_eq_ok.mp made
    exact ⟨rfl,visible⟩

/-- With private methods hidden a class has the same of its own, unless it has such a method
there. -/
theorem table_withPrivate (less : table ids (options.withPrivate false) c = .ok own)
    (more : table ids (options.withPrivate true) c = .ok full) (name : String) :
    own[name]? = full[name]? ∨ ∃ m, full[name]? = some (.method m) ∧ m.decl.name = name ∧
      m.decl.isPrivate = true := by
  have full_method {m : MethodBinding} (found : full[name]? = some (.method m)) :=
    (table_method more found).1
  obtain ⟨hidden,first,rfl⟩ := table_eq_ofPairs.mp less
  obtain ⟨exposed,second,rfl⟩ := table_eq_ofPairs.mp more
  obtain rfl := members_withPrivate first second
  rcases NameMap.ofPairs_filter (fun pair => !pair.2.isHidden) exposed name with
    same | ⟨member,found,_,dropped⟩
  · exact .inl same
  · cases member with
    | method m => exact .inr ⟨m,found,full_method found,by simpa [Member.isHidden] using dropped⟩
    | property | constant | signal => cases dropped

/-- What a class has of its own under a private name, with private methods hidden. -/
theorem table_data (run : table ids (options.withPrivate false) c = .ok own)
    (hidden : Private name) :
    Option.Rel (Binds (fun tag coercion => Coercion.ofTag? ids tag = some coercion) c.name name)
      (c.data? name) own[name]? := by
  obtain ⟨methods,properties,first,second,rfl⟩ := table_eq_ok.mp run
  have none : (methods.map fun m => (m.decl.name,Member.method m)).reverse.lookup name = none := by
    rw [List.lookup_eq_none_iff]
    intro pair member
    obtain ⟨bound,listed,rfl⟩ := List.mem_map.mp (List.mem_reverse.mp member)
    obtain ⟨m,declared,made⟩ := (mem_mapM first).mp listed
    obtain ⟨_,_,_,_,rfl⟩ := method_eq_ok.mp made
    have visible := isVisible_iff.mp (List.mem_filter.mp declared).2
    rw [bne_iff_ne]
    rintro rfl
    exact visible.elim Bool.false_ne_true fun shown => shown hidden
  rw [NameMap.ofPairs_getElem?]
  simp only [List.reverse_append,List.lookup_append,none,Option.or_none]
  refine rel_or (constants_rel _ c name) (rel_or (signals_rel _ c name) ?_)
  rw [← NameMap.ofPairs_getElem?,ClassDecl.property?]
  -- properties and their bindings are listed in the same order under the same names
  apply rel_map
  apply NameMap.ofPairs_rel
  rw [List.forall₂_map_left_iff,List.forall₂_map_right_iff]
  refine (mapM_eq_ok.mp second).imp fun p made run => ?_
  obtain ⟨coercion,denoted,rfl⟩ := property_eq_ok.mp run
  exact ⟨rfl,.property denoted⟩

end Bind

namespace Lattice

variable {db : Database} {options others : Options} {l k : Lattice} {t u : TypeInfo} {i j : ClassId}
  {c : ClassDecl} {name : String} {given : List ClassDecl} {constants : NameMap Int64}

/-- Ids are given by the database alone. -/
theorem Synthesized.ids_eq (made : Synthesized db options l) (also : Synthesized db others k) :
    l.ids = k.ids := by
  apply Std.ExtTreeMap.ext_getElem?
  intro name
  apply Option.ext
  intro i
  rw [made.ids_iff,also.ids_iff]

/-- Every method that a type has stands under its name and may be seen. -/
theorem member?_method (made : Synthesized db options l) (found : l.byId? i = some t)
    {m : MethodBinding} (known : t.member? name = some (.method m)) :
    m.decl.name = name ∧ Bind.isVisible options m.decl = true := by
  obtain ⟨line,here⟩ := exists_line made found
  rw [here.members] at known
  obtain ⟨a,above,own⟩ := List.exists_of_findSome?_eq_some known
  exact Bind.table_method (made.built.places a.id a (here.within a above)).table own

section

variable (made : Synthesized db (options.withPrivate false) l)
  (also : Synthesized db (options.withPrivate true) k)
include made also

theorem ownMember?_withPrivate (name : String) (member : c ∈ db.classes) :
    l.ownMember? name c = k.ownMember? name c ∨ ∃ m, k.ownMember? name c = some (.method m) ∧
      m.decl.name = name ∧ m.decl.isPrivate = true := by
  obtain ⟨t,known,rfl,found⟩ := made.exists_get? member
  obtain ⟨u,knownToo,same,foundToo⟩ := also.exists_get? member
  have less := (made.built.places t.id t found).table
  have more := (also.built.places u.id u foundToo).table
  rw [same,← made.ids_eq also] at more
  rw [ownMember?,ownMember?,known,knownToo]
  exact Bind.table_withPrivate less more name

/-- A walk past classes that answer alike ends alike; one that comes to a private method first ends
there. -/
theorem member?_withPrivate (loaded : Database.Loaded given constants db)
    (found : l.byId? i = some t) (foundToo : k.byId? j = some u) (same : u.decl = t.decl)
    (name : String) : t.member? name = u.member? name ∨ ∃ m, u.member? name = some (.method m) ∧
      m.decl.name = name ∧ m.decl.isPrivate = true := by
  have named : u.name = t.name := congrArg ClassDecl.name same
  have among : ∀ d ∈ db.ancestors t.name, d ∈ db.classes :=
    loaded.ancestors_within (made.decl_mem found)
  rw [member?_eq_walk loaded made found,member?_eq_walk loaded also foundToo,named]
  -- along the ancestors; up to a private method both types answer alike at each class
  generalize db.ancestors t.name = line at among
  induction line with
  | nil => exact .inl rfl
  | cons a line ih =>
    obtain ⟨first,rest⟩ := List.forall_mem_cons.mp among
    rw [List.findSome?_cons,List.findSome?_cons]
    rcases ownMember?_withPrivate made also name first with same | ⟨m,shown,secret⟩
    · rw [same]
      cases k.ownMember? name a with
      | none => exact ih rest
      | some _ => exact .inl rfl
    · rw [shown]
      exact .inr ⟨m,rfl,secret⟩

end

/-- What a class has of its own under a private name, with private methods hidden. -/
theorem ownMember?_data (made : Synthesized db (options.withPrivate false) l)
    (secret : Private name) : ∀ c ∈ db.classes, Option.Rel (Binds (Denotes l) c.name name) (c.data? name)
      (l.ownMember? name c) := by
  intro c member
  obtain ⟨t,known,rfl,found⟩ := made.exists_get? member
  rw [ownMember?,known]
  have raw := Bind.table_data (made.built.places t.id t found).table secret
  exact rel_imp (fun _ _ => Binds.mono fun _ _ => denotes_of_ofTag? made) raw

/-- What a type that hides private methods, `t`, has to do with the type of the same class that has
them, `u`. -/
structure Veils (db : Database) (l : Lattice) (t u : TypeInfo) : Prop where
  /-- A name makes a difference only where the second type has a private method. -/
  same : ∀ name, t.member? name = u.member? name ∨ ∃ m, u.member? name = some (.method m) ∧
    m.decl.name = name ∧ m.decl.isPrivate = true
  own : ∀ (name : String) m, t.own[name]? = some (.method m) →
    m.decl.name = name ∧ m.decl.isPrivate = false
  resolved : ∀ (name : String) m, t.members[name]? = some (.method m) →
    m.decl.name = name ∧ m.decl.isPrivate = false
  read : ∀ name m, Private name → t.member name ≠ .ok (.method m)
  /-- A call under a private name fails before anything is done. -/
  called : ∀ {σ : Type} (ctx : Context σ) (receiver : Wrapper) name args world, Private name →
    receiver.type = t → ∃ fault, ctx.callMember receiver name args world = .error fault world
  bound : ∀ name m, Private name → t.member? name = some m → ∃ owner declared,
    Nearest db.classes (·.data? name) t.decl owner declared ∧
    m.owner = owner.name ∧ Binds (Denotes l) owner.name name declared m
  unbound : ∀ name, Private name → t.member? name = none → ∀ c,
    Relation.ReflTransGen (Parent db.classes) t.decl c → c.data? name = none

theorem veils (loaded : Database.Loaded given constants db)
    (made : Synthesized db (options.withPrivate false) l)
    (also : Synthesized db (options.withPrivate true) k) (found : l.byId? i = some t)
    (foundToo : k.byId? j = some u) (same : u.decl = t.decl) : Veils db l t u := by
  have shown {m : MethodDecl} (visible : Bind.isVisible (options.withPrivate false) m = true) :
      m.isPrivate = false := by
    simpa [Bind.isVisible,Options.withPrivate] using visible
  have own (name : String) (m : MethodBinding) (listed : t.own[name]? = some (.method m)) :
      m.decl.name = name ∧ m.decl.isPrivate = false :=
    (Bind.table_method (made.built.places i t found).table listed).imp_right shown
  have resolved (name : String) (m : MethodBinding) (known : t.member? name = some (.method m)) :
      m.decl.name = name ∧ m.decl.isPrivate = false :=
    (member?_method made found known).imp_right shown
  have unmethod (name : String) (m : MethodBinding) (secret : Private name) :
      t.member? name ≠ some (.method m) := by
    intro known
    obtain ⟨rfl,visible⟩ := resolved name m known
    rw [MethodDecl.isPrivate_iff.mpr secret] at visible
    cases visible
  have member := made.decl_mem found
  have walk := member?_eq_walk loaded made found
  constructor
  case same => exact member?_withPrivate made also loaded found foundToo same
  case own => exact own
  case resolved => exact resolved
  case read =>
    intro name m secret read
    unfold TypeInfo.member at read
    split at read
    · rename_i known
      obtain rfl := Except.ok.inj read
      exact unmethod name m secret known
    · cases read
  case called =>
    rintro σ ctx receiver name args world secret rfl
    exact ctx.callMember_fails (fun m => unmethod name m secret) args world
  case bound =>
    intro name m secret known
    obtain ⟨owner,declared,first,binds⟩ :=
      loaded.nearest_of_walk member (ownMember?_data made secret) ((walk name).symm.trans known)
    exact ⟨owner,declared,first,binds.owner_eq,binds⟩
  case unbound =>
    intro name secret unknown c above
    exact loaded.none_of_walk member (ownMember?_data made secret)
      ((walk name).symm.trans unknown) above

/-- Whether private methods are exposed makes no difference to what else there is on a class. -/
theorem exposure_changes_private_methods_only (loaded : Database.ofClasses given constants = .ok db)
    (options : Options) : ∃ l k, ofDatabase db (options.withPrivate false) = .ok l ∧
      ofDatabase db (options.withPrivate true) = .ok k ∧
      ∀ c ∈ db.classes, ∃ t u, l.get? c.name = some t ∧ k.get? c.name = some u ∧
        t.decl = c ∧ u.decl = c ∧ Veils db l t u := by
  have facts := Database.loaded_of_ok loaded
  obtain ⟨l,run,made⟩ := ofDatabase_ok facts (options.withPrivate false)
  obtain ⟨k,runToo,also⟩ := ofDatabase_ok facts (options.withPrivate true)
  refine ⟨l,k,run,runToo,?_⟩
  intro c member
  obtain ⟨t,known,rfl,found⟩ := made.exists_get? member
  obtain ⟨u,knownToo,same,foundToo⟩ := also.exists_get? member
  exact ⟨t,u,known,knownToo,rfl,same,veils facts made also found foundToo same⟩

/-- The private method of the child has the name of a constant of its parent. -/
theorem hidden_limit_uncovers_constant : ∃ db l k t u, Database.ofClasses shadowing ∅ = .ok db ∧
    ofDatabase db (Options.withPrivate {} false) = .ok l ∧
    ofDatabase db (Options.withPrivate {} true) = .ok k ∧
    l.get? "Node" = some t ∧ k.get? "Node" = some u ∧ Veils db l t u ∧
    (u.member? "_limit").map (·.kindName) = some "method" ∧
    ∃ owner declared, Nearest db.classes (·.data? "_limit") t.decl owner declared ∧
      owner.name = "Object" := by
  obtain ⟨db,loaded,classes⟩ : ∃ db, Database.ofClasses shadowing ∅ = .ok db ∧
      db.classes = shadowing.reverse := ⟨_,rfl,rfl⟩
  obtain ⟨l,k,run,runToo,all⟩ := exposure_changes_private_methods_only loaded {}
  obtain ⟨c,member,named⟩ : ∃ c ∈ db.classes, c.name = "Node" := by simp [classes,shadowing]
  obtain ⟨t,u,known,knownToo,_,_,veils⟩ := all c member
  rw [named] at known knownToo
  have computed : (Database.ofClasses shadowing ∅ >>= fun db =>
      ofDatabase db (Options.withPrivate {} false) >>= fun l =>
      ofDatabase db (Options.withPrivate {} true) >>= fun k =>
      .ok ((l.get? "Node").map fun t => t.member? "_limit",
        (k.get? "Node").map fun u => (u.member? "_limit").map (·.kindName))) =
      .ok (some (some (.constant "Object" "_limit" 3)),some (some "method")) := rfl
  simp only [loaded,run,runToo,known,knownToo,bind,Except.bind,Option.map_some,Except.ok.injEq,
    Option.some.injEq,Prod.mk.injEq] at computed
  obtain ⟨uncovered,shown⟩ := computed
  obtain ⟨owner,declared,nearest,same,_⟩ := veils.bound "_limit" _ rfl uncovered
  exact ⟨db,l,k,t,u,loaded,run,runToo,known,knownToo,veils,shown,owner,declared,nearest,same.symm⟩

end Lattice
end ObjectBridge
