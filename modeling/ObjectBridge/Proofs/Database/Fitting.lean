import ObjectBridge.Database.Members
import ObjectBridge.Proofs.Database.Nearest

/-! Members that fit: what a class may declare, said by relations between classes alone, and that
the member checks decide exactly this once there is no cycle. -/
namespace ObjectBridge

/-- The class that a tag names, if it names one, is declared. -/
def Declared (classes : List ClassDecl) (tag : Tag) : Prop :=
  ∀ name, tag.cls? = some name → ∃ c ∈ classes, c.name = name

structure FitsMethod (classes : List ClassDecl) (m : MethodDecl) : Prop where
  params : ∀ tag ∈ m.params, tag ≠ .nil ∧ Declared classes tag
  returns : Declared classes m.returns

def FitsGetter (classes : List ClassDecl) (p : PropertyDecl) (m : MethodDecl) : Prop :=
  m.params = [] ∧ (m.returns = .variant ∨ Assignable classes m.returns p.tag)

def FitsSetter (classes : List ClassDecl) (p : PropertyDecl) (m : MethodDecl) : Prop :=
  ∃ param, m.params = [param] ∧ Assignable classes p.tag param

/-- Accessors are the nearest methods of their names. -/
structure FitsProperty (classes : List ClassDecl) (c : ClassDecl) (p : PropertyDecl) : Prop where
  tag : p.tag ≠ .nil ∧ Declared classes p.tag
  getter : ∃ owner m, Nearest classes (·.method? p.getter) c owner m ∧ FitsGetter classes p m
  setter : ∀ name, p.setter = some name →
    ∃ owner m, Nearest classes (·.method? name) c owner m ∧ FitsSetter classes p m

structure MembersFit (classes : List ClassDecl) (c : ClassDecl) : Prop where
  distinct : (c.methods.map (·.name)).Nodup
  methods : ∀ m ∈ c.methods, FitsMethod classes m
  properties : ∀ (name : String) (p : PropertyDecl), c.properties[name]? = some p →
    FitsProperty classes c p

namespace Members

variable {index : ClassIndex} {classes : List ClassDecl} (indexes : Indexes index classes)
include indexes

theorem checkTag_decides (context : String) (tag : Tag) :
    Decides .members (checkTag index context tag) (Declared classes tag) := by
  unfold checkTag Declared
  cases tag.cls? with
  | none => exact .success (by simp)
  | some cls =>
    have declared : (∀ name, some cls = some name → ∃ c ∈ classes, c.name = name) ↔
        cls ∈ index := by
      simp [indexes.mem_iff]
    by_cases known : cls ∈ index
    · simp only [known,if_true]
      exact .success (declared.mpr known)
    · simp only [known,if_false]
      exact .failure (mt declared.mp known) rfl

theorem checkValueTag_decides (context : String) (tag : Tag) :
    Decides .members (checkValueTag index context tag) (tag ≠ .nil ∧ Declared classes tag) := by
  have nil : tag.isNil = true ↔ tag = .nil := by cases tag <;> simp [Tag.isNil]
  unfold checkValueTag
  refine Decides.congr (Decides.guard rfl fun _ => checkTag_decides indexes context tag) ?_
  rw [nil]

theorem checkParams_decides (context : String) (params : List Tag) :
    Decides .members (checkParams index context params)
      (∀ tag ∈ params, tag ≠ .nil ∧ Declared classes tag) := by
  induction params with
  | nil => exact .success (by simp)
  | cons tag rest ih =>
    have step : checkParams index context (tag :: rest) =
        checkValueTag index context tag >>= fun _ => checkParams index context rest := by
      rw [checkParams]
      cases checkValueTag index context tag <;> rfl
    rw [step]
    refine ((checkValueTag_decides indexes context tag).bind fun _ _ => ih).congr ?_
    rw [List.forall_mem_cons]

theorem checkMethods_decides (c : ClassDecl) (seen : List String) (methods : List MethodDecl) :
    Decides .members (checkMethods index c seen methods)
      ((∀ m ∈ methods, m.name ∉ seen) ∧ (methods.map (·.name)).Nodup ∧
        ∀ m ∈ methods, FitsMethod classes m) := by
  induction methods generalizing seen with
  | nil => exact .success (by simp)
  | cons m rest ih =>
    unfold checkMethods
    refine Decides.congr (Decides.guard rfl fun _ =>
      (checkParams_decides indexes (c.context m.name) m.params).bind fun _ _ =>
      (checkTag_decides indexes (c.context m.name) m.returns).bind fun _ _ =>
      ih (m.name :: seen)) ?_
    simp only [List.forall_mem_cons,List.map_cons,List.nodup_cons,List.mem_map]
    constructor
    · rintro ⟨new,params,returns,apart,distinct,fits⟩
      refine ⟨⟨new,fun d md => List.not_mem_of_not_mem_cons (apart d md)⟩,
        ⟨?_,distinct⟩,⟨params,returns⟩,fits⟩
      rintro ⟨d,md,same⟩
      exact List.ne_of_not_mem_cons (apart d md) same
    · rintro ⟨⟨new,apart⟩,⟨fresh,distinct⟩,first,fits⟩
      exact ⟨new,first.params,first.returns,
        fun d md => List.not_mem_cons_of_ne_of_not_mem (fun same => fresh ⟨d,md,same⟩) (apart d md),
        distinct,fits⟩

variable (acyclic : Acyclic classes)
include acyclic

theorem getterFault?_eq_none (p : PropertyDecl) (m : MethodDecl) :
    getterFault? index p m = none ↔ FitsGetter classes p m := by
  unfold getterFault? FitsGetter
  by_cases bare : m.params = []
  · simp [bare,indexes.assignable_iff acyclic,or_iff_not_imp_left]
  · simp [bare]

theorem setterFault?_eq_none (p : PropertyDecl) (m : MethodDecl) :
    setterFault? index p m = none ↔ FitsSetter classes p m := by
  unfold setterFault? FitsSetter
  split
  · rename_i param single
    simp [single,indexes.assignable_iff acyclic]
  · rename_i several
    simp only [reduceCtorEq,false_iff]
    rintro ⟨param,single,_⟩
    exact several param single

theorem checkAccessor_decides {c : ClassDecl} (member : c ∈ classes) (p : PropertyDecl)
    (accessor : String) {fault? : MethodDecl → Option String} {Fits : MethodDecl → Prop}
    (fits : ∀ m, fault? m = none ↔ Fits m) :
    Decides .members (checkAccessor index c p accessor fault?)
      (∃ owner m, Nearest classes (·.method? accessor) c owner m ∧ Fits m) := by
  have nearest (m : MethodDecl) : index.findMethod? c accessor = some m ↔
      ∃ owner, Nearest classes (·.method? accessor) c owner m :=
    indexes.findMethod?_iff acyclic member
  unfold checkAccessor
  cases found : index.findMethod? c accessor with
  | none =>
    refine .failure ?_ rfl
    rintro ⟨owner,m,near,_⟩
    rw [(nearest m).mpr ⟨owner,near⟩] at found
    cases found
  | some m =>
    obtain ⟨owner,near⟩ := (nearest m).mp found
    cases fault : fault? m with
    | none =>
      simp only [fault]
      exact .success ⟨owner,m,near,(fits m).mp fault⟩
    | some reason =>
      simp only [fault]
      refine .failure ?_ rfl
      rintro ⟨owner,n,near,good⟩
      obtain rfl := Option.some.inj (found.symm.trans ((nearest n).mpr ⟨owner,near⟩))
      rw [(fits m).mpr good] at fault
      cases fault

theorem checkProperty_decides {c : ClassDecl} (member : c ∈ classes) (p : PropertyDecl) :
    Decides .members (checkProperty index c p) (FitsProperty classes c p) := by
  unfold checkProperty
  refine Decides.congr ((checkValueTag_decides indexes (c.context p.name) p.tag).bind fun _ _ =>
    (checkAccessor_decides indexes acyclic member p p.getter
      (getterFault?_eq_none indexes acyclic p)).bind
    (Q := ∀ name, p.setter = some name →
      ∃ owner m, Nearest classes (·.method? name) c owner m ∧ FitsSetter classes p m)
    fun _ _ => ?_) ?_
  · cases p.setter with
    | none => exact .success (by simp)
    | some name =>
      refine (checkAccessor_decides indexes acyclic member p name
        (setterFault?_eq_none indexes acyclic p)).congr ?_
      simp
  · constructor
    · rintro ⟨tag,getter,setter⟩
      exact ⟨tag,getter,setter⟩
    · rintro ⟨tag,getter,setter⟩
      exact ⟨tag,getter,setter⟩

theorem checkProperties_decides {c : ClassDecl} (member : c ∈ classes)
    (properties : List PropertyDecl) :
    Decides .members (checkProperties index c properties)
      (∀ p ∈ properties, FitsProperty classes c p) := by
  induction properties with
  | nil => exact .success (by simp)
  | cons p rest ih =>
    refine ((checkProperty_decides indexes acyclic member p).bind fun _ _ => ih).congr ?_
    rw [List.forall_mem_cons]

theorem checkClass_decides {c : ClassDecl} (member : c ∈ classes) :
    Decides .members (checkClass index c) (MembersFit classes c) := by
  refine ((checkMethods_decides indexes c [] c.methods).bind fun _ _ =>
    checkProperties_decides indexes acyclic member c.properties.values).congr ?_
  constructor
  · rintro ⟨⟨_,distinct,methods⟩,properties⟩
    exact ⟨distinct,methods,fun name p found =>
      properties p (NameMap.mem_values.mpr ⟨name,found⟩)⟩
  · rintro ⟨distinct,methods,properties⟩
    refine ⟨⟨by simp,distinct,methods⟩,?_⟩
    intro p mp
    obtain ⟨name,found⟩ := NameMap.mem_values.mp mp
    exact properties name p found

theorem check_decides (among : List ClassDecl) (within : ∀ c ∈ among, c ∈ classes) :
    Decides .members (check index among) (∀ c ∈ among, MembersFit classes c) := by
  induction among with
  | nil => exact .success (by simp)
  | cons c rest ih =>
    refine ((checkClass_decides indexes acyclic (within c List.mem_cons_self)).bind fun _ _ =>
      ih fun d md => within d (List.mem_cons_of_mem c md)).congr ?_
    rw [List.forall_mem_cons]

end Members
end ObjectBridge
