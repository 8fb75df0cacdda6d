import ObjectBridge.Member.Bind
import ObjectBridge.Proofs.Database.Fitting

/-! The table of a class's own members. What a name stands for on a class is read off its
declaration; binding succeeds once all tags are declared, and its table then has for each name
the member that the declaration asks for, or none. -/
namespace ObjectBridge

/-- What a class declares under a name. -/
inductive Declaration where
  | constant (value : Int64)
  | signal
  | property (p : PropertyDecl)
  | method (m : MethodDecl)

/-- A constant comes before a signal of its name, a signal before a property and a property before
a method; a private method counts only if it is exposed. -/
def ClassDecl.declares? (options : Options) (c : ClassDecl) (name : String) :
    Option Declaration :=
  (c.constants[name]?.map .constant).or <|
  (if name ∈ c.signals then some .signal else none).or <|
  (c.properties[name]?.map .property).or <|
  if options.exposePrivateMethods = true ∨ name.toList.head? ≠ some '_' then
    (c.method? name).map .method
  else none

/-- The member is the declaration, bound for its owner with a coercion for each tag. -/
inductive Binds (denotes : Tag → Coercion → Prop) (owner name : String) :
    Declaration → Member → Prop where
  | constant : Binds denotes owner name (.constant value) (.constant owner name value)
  | signal : Binds denotes owner name .signal (.signal owner name)
  | property : denotes p.tag coercion →
      Binds denotes owner name (.property p) (.property ⟨owner,p,coercion⟩)
  | method : List.Forall₂ denotes m.params params → denotes m.returns returns →
      Binds denotes owner name (.method m) (.method ⟨owner,m,params,returns⟩)

namespace Binds

variable {denotes more : Tag → Coercion → Prop} {owner name : String} {d : Declaration}
  {member : Member}

theorem owner_eq (binds : Binds denotes owner name d member) : member.owner = owner := by
  cases binds <;> rfl

theorem mono (implies : ∀ tag coercion, denotes tag coercion → more tag coercion)
    (binds : Binds denotes owner name d member) : Binds more owner name d member := by
  cases binds with
  | constant => exact .constant
  | signal => exact .signal
  | property tag => exact .property (implies _ _ tag)
  | method params returns => exact .method (params.imp implies) (implies _ _ returns)

end Binds

theorem ClassDecl.method?_eq_some {c : ClassDecl} {name : String} {m : MethodDecl}
    (distinct : (c.methods.map (·.name)).Nodup) :
    c.method? name = some m ↔ m ∈ c.methods ∧ m.name = name := by
  constructor
  · intro found
    exact ⟨List.mem_of_find?_eq_some found,by simpa using List.find?_some found⟩
  · rintro ⟨member,rfl⟩
    cases found : c.method? m.name with
    | none => simpa using List.find?_eq_none.mp found m member
    | some first =>
      have same : first.name = m.name := by simpa using List.find?_some found
      rw [List.inj_on_of_nodup_map distinct (List.mem_of_find?_eq_some found) member same]

theorem rel_imp {R S : α → β → Prop} (implies : ∀ a b, R a b → S a b) {a : Option α}
    {b : Option β} (rel : Option.Rel R a b) : Option.Rel S a b := by
  cases rel with
  | some related => exact .some (implies _ _ related)
  | none => exact .none

theorem rel_map {R : β → γ → Prop} {f : α → β} {a : Option α} {c : Option γ}
    (rel : Option.Rel (fun a c => R (f a) c) a c) : Option.Rel R (a.map f) c := by
  cases rel with
  | some related => exact .some related
  | none => exact .none

theorem rel_or {R : α → β → Prop} {a a' : Option α} {b b' : Option β} (first : Option.Rel R a b)
    (second : Option.Rel R a' b') : Option.Rel R (a.or a') (b.or b') := by
  cases first with
  | some related => exact .some related
  | none => exact second

namespace Bind

variable {ids : NameMap ClassId} {options : Options} {c : ClassDecl}

theorem coercion_eq_ok {context : String} {tag : Tag} {bound : Coercion} :
    coercion ids context tag = .ok bound ↔ Coercion.ofTag? ids tag = some bound := by
  unfold coercion
  cases Coercion.ofTag? ids tag <;> simp

theorem isVisible_iff {m : MethodDecl} :
    isVisible options m = true ↔
      options.exposePrivateMethods = true ∨ m.name.toList.head? ≠ some '_' := by
  simp [isVisible,MethodDecl.isPrivate,or_comm]

theorem method_eq_ok {m : MethodDecl} {bound : MethodBinding} :
    method ids c m = .ok bound ↔ ∃ params returns,
      List.Forall₂ (fun tag coercion => Coercion.ofTag? ids tag = some coercion) m.params params ∧
      Coercion.ofTag? ids m.returns = some returns ∧ bound = ⟨c.name,m,params,returns⟩ := by
  simp only [method,bind_eq_ok,mapM_eq_ok,coercion_eq_ok,pure,Except.pure,Except.ok.injEq]
  constructor
  · rintro ⟨params,all,returns,last,rfl⟩
    exact ⟨params,returns,all,last,rfl⟩
  · rintro ⟨params,returns,all,last,rfl⟩
    exact ⟨params,all,returns,last,rfl⟩

theorem property_eq_ok {p : PropertyDecl} {bound : PropertyBinding} :
    property ids c p = .ok bound ↔
      ∃ coercion, Coercion.ofTag? ids p.tag = some coercion ∧ bound = ⟨c.name,p,coercion⟩ := by
  simp only [property,bind_eq_ok,coercion_eq_ok,pure,Except.pure,Except.ok.injEq]
  exact exists_congr fun _ => and_congr_right' eq_comm

theorem members_eq_ok {pairs : List (String × Member)} :
    members ids options c = .ok pairs ↔ ∃ methods properties,
      (c.methods.filter (isVisible options)).mapM (method ids c) = .ok methods ∧
      c.properties.values.mapM (property ids c) = .ok properties ∧
      pairs = methods.map (fun m => (m.decl.name,.method m)) ++
        properties.map (fun p => (p.decl.name,.property p)) ++
        c.signals.map (fun name => (name,.signal c.name name)) ++
        c.constants.toList.map (fun pair => (pair.1,.constant c.name pair.1 pair.2)) := by
  simp only [members,bind_eq_ok,pure,Except.pure,Except.ok.injEq]
  constructor
  · rintro ⟨methods,first,properties,second,rfl⟩
    exact ⟨methods,properties,first,second,rfl⟩
  · rintro ⟨methods,properties,first,second,rfl⟩
    exact ⟨methods,first,properties,second,rfl⟩

theorem table_eq_ofPairs {own : MemberTable} :
    table ids options c = .ok own ↔
      ∃ pairs, members ids options c = .ok pairs ∧ own = NameMap.ofPairs pairs := by
  simp only [table,bind_eq_ok,pure,Except.pure,Except.ok.injEq,eq_comm (b := own)]

theorem table_eq_ok {own : MemberTable} :
    table ids options c = .ok own ↔ ∃ methods properties,
      (c.methods.filter (isVisible options)).mapM (method ids c) = .ok methods ∧
      c.properties.values.mapM (property ids c) = .ok properties ∧
      own = NameMap.ofPairs (methods.map (fun m => (m.decl.name,.method m)) ++
        properties.map (fun p => (p.decl.name,.property p)) ++
        c.signals.map (fun name => (name,.signal c.name name)) ++
        c.constants.toList.map (fun pair => (pair.1,.constant c.name pair.1 pair.2))) := by
  rw [table_eq_ofPairs]
  constructor
  · rintro ⟨pairs,run,rfl⟩
    obtain ⟨methods,properties,first,second,rfl⟩ := members_eq_ok.mp run
    exact ⟨methods,properties,first,second,rfl⟩
  · rintro ⟨methods,properties,first,second,rfl⟩
    exact ⟨_,members_eq_ok.mpr ⟨methods,properties,first,second,rfl⟩,rfl⟩

theorem ofTag?_exists {classes : List ClassDecl}
    (known : ∀ d ∈ classes, ∃ id : ClassId, ids[d.name]? = some id) {tag : Tag}
    (declared : Declared classes tag) : ∃ coercion, Coercion.ofTag? ids tag = some coercion := by
  rcases tag with _ | _ | _ | _ | _ | cls | _
  case object =>
    cases cls with
    | none => exact ⟨_,rfl⟩
    | some cls =>
      obtain ⟨d,md,rfl⟩ := declared cls rfl
      obtain ⟨id,found⟩ := known d md
      exact ⟨.object (some id),by simp [Coercion.ofTag?,found]⟩
  all_goals exact ⟨_,rfl⟩

/-- A class whose members fit can be bound, whatever the options are. -/
theorem exists_table {classes : List ClassDecl}
    (known : ∀ d ∈ classes, ∃ id : ClassId, ids[d.name]? = some id)
    (fits : MembersFit classes c) : ∃ own, table ids options c = .ok own := by
  have methods : ∃ bound,
      (c.methods.filter (isVisible options)).mapM (method ids c) = .ok bound := by
    apply exists_mapM
    intro m visible
    have fit := fits.methods m (List.mem_filter.mp visible).1
    obtain ⟨params,all⟩ : ∃ params,
        m.params.mapM (coercion ids (c.context m.name)) = .ok params := by
      apply exists_mapM
      intro tag member
      obtain ⟨bound,found⟩ := ofTag?_exists known (fit.params tag member).2
      exact ⟨bound,coercion_eq_ok.mpr found⟩
    obtain ⟨returns,last⟩ := ofTag?_exists known fit.returns
    refine ⟨_,method_eq_ok.mpr ⟨params,returns,?_,last,rfl⟩⟩
    simpa only [coercion_eq_ok] using mapM_eq_ok.mp all
  have properties : ∃ bound, c.properties.values.mapM (property ids c) = .ok bound := by
    apply exists_mapM
    intro p member
    obtain ⟨name,found⟩ := NameMap.mem_values.mp member
    obtain ⟨bound,known⟩ := ofTag?_exists known (fits.properties name p found).tag.2
    exact ⟨_,property_eq_ok.mpr ⟨bound,known,rfl⟩⟩
  obtain ⟨methods,first⟩ := methods
  obtain ⟨properties,second⟩ := properties
  exact ⟨_,table_eq_ok.mpr ⟨methods,properties,first,second,rfl⟩⟩

/-- A member under its name, as it comes into the table of its class. -/
inductive Entered (ids : NameMap ClassId) (options : Options) (c : ClassDecl) :
    String → Member → Prop where
  | method {m : MethodDecl} {bound : MethodBinding} : m ∈ c.methods →
      isVisible options m = true → method ids c m = .ok bound →
      Entered ids options c m.name (.method bound)
  | property {p : PropertyDecl} {bound : PropertyBinding} : p ∈ c.properties.values →
      property ids c p = .ok bound → Entered ids options c p.name (.property bound)
  | signal {name : String} : Entered ids options c name (.signal c.name name)
  | constant {name : String} {value : Int64} :
      Entered ids options c name (.constant c.name name value)

theorem entered_of_table {own : MemberTable} (run : table ids options c = .ok own) {name : String}
    {m : Member} (found : own[name]? = some m) : Entered ids options c name m := by
  obtain ⟨methods,properties,first,second,rfl⟩ := table_eq_ok.mp run
  rw [NameMap.ofPairs_getElem?] at found
  have listed := List.mem_reverse.mp (NameMap.mem_of_lookup found)
  simp only [List.mem_append,List.mem_map,Prod.mk.injEq] at listed
  rcases listed with ((⟨bound,member,rfl,rfl⟩ | ⟨bound,member,rfl,rfl⟩) | ⟨_,_,rfl,rfl⟩) |
    ⟨_,_,rfl,rfl⟩
  · obtain ⟨m,listed,made⟩ := (mem_mapM first).mp member
    obtain ⟨declared,visible⟩ := List.mem_filter.mp listed
    obtain ⟨_,_,_,_,rfl⟩ := method_eq_ok.mp made
    exact .method declared visible made
  · obtain ⟨p,declared,made⟩ := (mem_mapM second).mp member
    obtain ⟨_,_,rfl⟩ := property_eq_ok.mp made
    exact .property declared made
  · exact .signal
  · exact .constant

/-- Whatever is found in an own table is bound from a declaration of that name. -/
theorem table_binds {own : MemberTable} (run : table ids options c = .ok own) {name : String}
    {m : Member} (found : own[name]? = some m) :
    ∃ d, Binds (fun tag coercion => Coercion.ofTag? ids tag = some coercion) c.name name d m := by
  cases entered_of_table run found with
  | method _ _ made =>
    obtain ⟨params,returns,all,last,rfl⟩ := method_eq_ok.mp made
    exact ⟨_,.method all last⟩
  | property _ made =>
    obtain ⟨coercion,denoted,rfl⟩ := property_eq_ok.mp made
    exact ⟨_,.property denoted⟩
  | signal => exact ⟨_,.signal⟩
  | constant => exact ⟨_,.constant⟩

theorem constants_rel (denotes : Tag → Coercion → Prop) (c : ClassDecl) (name : String) :
    Option.Rel (Binds denotes c.name name) (c.constants[name]?.map .constant)
      ((c.constants.toList.map fun pair =>
        (pair.1,Member.constant c.name pair.1 pair.2)).reverse.lookup name) := by
  apply NameMap.lookup_rel
  · intro a member
    obtain ⟨⟨key,value⟩,listed,same⟩ := List.mem_map.mp member
    obtain ⟨rfl,rfl⟩ := Prod.mk.inj same
    have found := Std.ExtTreeMap.mem_toList_iff_getElem?_eq_some.mp listed
    exact ⟨.constant value,by simp [found],.constant⟩
  · intro d wanted
    obtain ⟨value,found,_⟩ := Option.map_eq_some_iff.mp wanted
    exact ⟨_,List.mem_map.mpr
      ⟨(name,value),Std.ExtTreeMap.mem_toList_iff_getElem?_eq_some.mpr found,rfl⟩⟩

theorem signals_rel (denotes : Tag → Coercion → Prop) (c : ClassDecl) (name : String) :
    Option.Rel (Binds denotes c.name name) (if name ∈ c.signals then some .signal else none)
      ((c.signals.map fun name => (name,Member.signal c.name name)).reverse.lookup name) := by
  apply NameMap.lookup_rel
  · intro a member
    obtain ⟨key,listed,same⟩ := List.mem_map.mp member
    obtain ⟨rfl,rfl⟩ := Prod.mk.inj same
    exact ⟨.signal,by simp [listed],.signal⟩
  · intro d wanted
    obtain ⟨listed,_⟩ := Option.ite_none_right_eq_some.mp wanted
    exact ⟨_,List.mem_map.mpr ⟨name,listed,rfl⟩⟩

theorem properties_rel {properties : List PropertyBinding}
    (keyed : ∀ (key : String) (p : PropertyDecl), c.properties[key]? = some p → p.name = key)
    (run : c.properties.values.mapM (property ids c) = .ok properties) (name : String) :
    Option.Rel (Binds (fun tag coercion => Coercion.ofTag? ids tag = some coercion) c.name name)
      (c.properties[name]?.map .property)
      ((properties.map fun p => (p.decl.name,Member.property p)).reverse.lookup name) := by
  apply NameMap.lookup_rel
  · intro a member
    obtain ⟨bound,listed,same⟩ := List.mem_map.mp member
    obtain ⟨p,declared,made⟩ := (mem_mapM run).mp listed
    obtain ⟨coercion,denoted,rfl⟩ := property_eq_ok.mp made
    obtain ⟨rfl,rfl⟩ := Prod.mk.inj same
    obtain ⟨key,found⟩ := NameMap.mem_values.mp declared
    obtain rfl := keyed key p found
    exact ⟨.property p,by simp [found],.property denoted⟩
  · intro d wanted
    obtain ⟨p,found,_⟩ := Option.map_eq_some_iff.mp wanted
    obtain ⟨bound,listed,made⟩ := exists_of_mapM run (NameMap.mem_values.mpr ⟨name,found⟩)
    obtain ⟨coercion,_,rfl⟩ := property_eq_ok.mp made
    exact ⟨_,List.mem_map.mpr ⟨_,listed,by rw [keyed name p found]⟩⟩

theorem methods_rel {methods : List MethodBinding} (distinct : (c.methods.map (·.name)).Nodup)
    (run : (c.methods.filter (isVisible options)).mapM (method ids c) = .ok methods)
    (name : String) :
    Option.Rel (Binds (fun tag coercion => Coercion.ofTag? ids tag = some coercion) c.name name)
      (if options.exposePrivateMethods = true ∨ name.toList.head? ≠ some '_' then
        (c.method? name).map .method
      else none)
      ((methods.map fun m => (m.decl.name,Member.method m)).reverse.lookup name) := by
  apply NameMap.lookup_rel
  · intro a member
    obtain ⟨bound,listed,same⟩ := List.mem_map.mp member
    obtain ⟨m,declared,made⟩ := (mem_mapM run).mp listed
    obtain ⟨params,returns,all,last,rfl⟩ := method_eq_ok.mp made
    obtain ⟨rfl,rfl⟩ := Prod.mk.inj same
    obtain ⟨member,visible⟩ := List.mem_filter.mp declared
    have found := (ClassDecl.method?_eq_some distinct).mpr ⟨member,rfl⟩
    exact ⟨.method m,by simp [isVisible_iff.mp visible,found],.method all last⟩
  · intro d wanted
    obtain ⟨visible,wanted⟩ := Option.ite_none_right_eq_some.mp wanted
    obtain ⟨m,found,_⟩ := Option.map_eq_some_iff.mp wanted
    obtain ⟨member,rfl⟩ := (ClassDecl.method?_eq_some distinct).mp found
    obtain ⟨bound,listed,made⟩ :=
      exists_of_mapM run (List.mem_filter.mpr ⟨member,isVisible_iff.mpr visible⟩)
    obtain ⟨params,returns,_,_,rfl⟩ := method_eq_ok.mp made
    exact ⟨_,List.mem_map.mpr ⟨_,listed,rfl⟩⟩

/-- An own table has for each name what the class declares under it. -/
theorem table_declares {own : MemberTable} (run : table ids options c = .ok own)
    (distinct : (c.methods.map (·.name)).Nodup)
    (keyed : ∀ (key : String) (p : PropertyDecl), c.properties[key]? = some p → p.name = key)
    (name : String) :
    Option.Rel (Binds (fun tag coercion => Coercion.ofTag? ids tag = some coercion) c.name name)
      (c.declares? options name) own[name]? := by
  obtain ⟨methods,properties,first,second,rfl⟩ := table_eq_ok.mp run
  rw [NameMap.ofPairs_getElem?]
  simp only [List.reverse_append,List.lookup_append]
  -- pairs are listed in the opposite order, the last one of a name wins
  exact rel_or (constants_rel _ c name) (rel_or (signals_rel _ c name)
    (rel_or (properties_rel keyed second name) (methods_rel distinct first name)))

end Bind
end ObjectBridge
