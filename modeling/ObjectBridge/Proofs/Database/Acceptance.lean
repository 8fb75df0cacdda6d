import ObjectBridge.Database
import ObjectBridge.Proofs.Database.Fitting
import ObjectBridge.Proofs.Database.Order

/-! Which lists of classes a database accepts. Each pass of validation decides one requirement,
relying on those of the passes before it; the first requirement that fails is the one reported. -/
namespace ObjectBridge

/-- No singleton is published as another class or like another singleton. -/
structure SingletonsApart (classes : List ClassDecl) : Prop where
  hides : ∀ s ∈ classes, s.singleton = true → ∀ c ∈ classes, c.name = s.bindingName → c = s
  shares : ∀ s ∈ classes, ∀ t ∈ classes, s.singleton = true → t.singleton = true →
    s.bindingName = t.bindingName → s = t

/-- What is required of the classes that a database is made of. -/
structure Acceptable (classes : List ClassDecl) : Prop where
  nonempty : classes ≠ []
  distinct : (classes.map (·.name)).Nodup
  singletons : SingletonsApart classes
  parents : ParentsDeclared classes
  acyclic : Acyclic classes
  root : ∃! c, c ∈ classes ∧ c.parent = none
  members : ∀ c ∈ classes, MembersFit classes c

/-- The part of the requirements that a pass looks after. -/
def Requires (classes : List ClassDecl) : Check → Prop
  | .document => True
  | .classNames => classes ≠ [] ∧ (classes.map (·.name)).Nodup
  | .singletonNames => SingletonsApart classes
  | .parents => ParentsDeclared classes
  | .cycles => Acyclic classes
  | .roots => ∃! c, c ∈ classes ∧ c.parent = none
  | .members => ∀ c ∈ classes, MembersFit classes c

/-- The passes over the classes of a list, in the order in which they run. -/
def Check.passes : List Check :=
  [.classNames,.singletonNames,.parents,.cycles,.roots,.members]

theorem acceptable_iff {classes : List ClassDecl} :
    Acceptable classes ↔ ∀ check ∈ Check.passes, Requires classes check := by
  simp only [Check.passes,List.forall_mem_cons,Requires]
  constructor
  · intro ok
    exact ⟨⟨ok.nonempty,ok.distinct⟩,ok.singletons,ok.parents,ok.acyclic,ok.root,ok.members,
      by simp⟩
  · rintro ⟨⟨nonempty,distinct⟩,singletons,parents,acyclic,root,members,_⟩
    exact ⟨nonempty,distinct,singletons,parents,acyclic,root,members⟩

namespace Names

variable {index : ClassIndex} {classes : List ClassDecl}

theorem bindSingleton_ok {bound after : NameMap String} {c : ClassDecl} {name : String}
    (run : bindSingleton index bound c = .ok after) :
    name ∈ after ↔ name = c.bindingName ∨ name ∈ bound := by
  simp only [bindSingleton] at run
  split at run
  · cases run
  · split at run
    · cases run
    · obtain rfl := Except.ok.inj run
      rw [Std.ExtTreeMap.mem_insert,Std.compare_eq_iff_eq,eq_comm]

variable (indexes : Indexes index classes)
include indexes

theorem bindSingleton_decides {c : ClassDecl} (member : c ∈ classes) (bound : NameMap String) :
    Decides .singletonNames (bindSingleton index bound c)
      ((∀ d ∈ classes, d.name = c.bindingName → d = c) ∧ c.bindingName ∉ bound) := by
  have hides : (∀ d ∈ classes, d.name = c.bindingName → d = c) ↔
      ¬(c.bindingName ≠ c.name ∧ c.bindingName ∈ index) := by
    rw [indexes.mem_iff]
    constructor
    · rintro alone ⟨differ,d,md,same⟩
      exact differ (alone d md same ▸ same).symm
    · intro free d md same
      by_cases own : c.bindingName = c.name
      · exact indexes.eq_of_name md member (same.trans own)
      · exact absurd ⟨own,d,md,same⟩ free
  unfold bindSingleton
  refine Decides.congr (Decides.guard rfl fun _ => ?_) (and_congr_left' hides.symm)
  cases found : bound[c.bindingName]? with
  | none => exact .success (by simp [Std.ExtTreeMap.mem_iff_isSome_getElem?,found])
  | some first =>
    exact .failure (by simp [Std.ExtTreeMap.mem_iff_isSome_getElem?,found]) rfl

theorem bindSingletons_decides {among : List ClassDecl} (within : ∀ s ∈ among, s ∈ classes)
    (bound : NameMap String) :
    Decides .singletonNames (bindSingletons index bound among)
      ((∀ s ∈ among, ∀ c ∈ classes, c.name = s.bindingName → c = s) ∧
        (∀ s ∈ among, s.bindingName ∉ bound) ∧ (among.map (·.bindingName)).Nodup) := by
  induction among generalizing bound with
  | nil => exact .success (by simp)
  | cons s rest ih =>
    have step : bindSingletons index bound (s :: rest) =
        bindSingleton index bound s >>= fun bound => bindSingletons index bound rest := by
      rw [bindSingletons]
      cases bindSingleton index bound s <;> rfl
    have later (after : NameMap String) (run : bindSingleton index bound s = .ok after) :
        Decides .singletonNames (bindSingletons index after rest)
          ((∀ t ∈ rest, ∀ c ∈ classes, c.name = t.bindingName → c = t) ∧
            (∀ t ∈ rest, t.bindingName ≠ s.bindingName ∧ t.bindingName ∉ bound) ∧
            (rest.map (·.bindingName)).Nodup) := by
      refine (ih (fun t mt => within t (List.mem_cons_of_mem s mt)) after).congr ?_
      simp only [bindSingleton_ok run,not_or]
    rw [step]
    refine ((bindSingleton_decides indexes (within s List.mem_cons_self) bound).bind later).congr ?_
    simp only [List.forall_mem_cons,List.map_cons,List.nodup_cons,List.mem_map]
    constructor
    · rintro ⟨⟨alone,new⟩,others,apart,distinct⟩
      refine ⟨⟨alone,others⟩,⟨new,fun t mt => (apart t mt).2⟩,?_,distinct⟩
      rintro ⟨t,mt,same⟩
      exact (apart t mt).1 same
    · rintro ⟨⟨alone,others⟩,⟨new,unbound⟩,fresh,distinct⟩
      exact ⟨⟨alone,new⟩,others,
        fun t mt => ⟨fun same => fresh ⟨t,mt,same⟩,unbound t mt⟩,distinct⟩

theorem checkSingletons_decides :
    Decides .singletonNames (checkSingletons index classes) (SingletonsApart classes) := by
  have nodup : (classes.filter (·.singleton)).Nodup := indexes.nodup.filter _
  refine (bindSingletons_decides indexes (fun s ms => (List.mem_filter.mp ms).1) ∅).congr ?_
  rw [List.nodup_map_iff_inj_on nodup]
  simp only [List.mem_filter]
  constructor
  · rintro ⟨hides,_,shares⟩
    exact ⟨fun s ms single => hides s ⟨ms,single⟩,
      fun s ms t mt single other => shares s ⟨ms,single⟩ t ⟨mt,other⟩⟩
  · intro apart
    exact ⟨fun s ms => apart.hides s ms.1 ms.2,by simp,
      fun s ms t mt => apart.shares s ms.1 t mt.1 ms.2 mt.2⟩

end Names

namespace Hierarchy

theorem check_eq_bind (index : ClassIndex) (classes : List ClassDecl) :
    check index classes = checkCycles index [] classes >>= fun _ => checkRoots classes := by
  rw [check]
  cases checkCycles index [] classes <;> rfl

variable {index : ClassIndex} {classes : List ClassDecl} (indexes : Indexes index classes)
include indexes

theorem checkParents_decides (among : List ClassDecl) :
    Decides .parents (checkParents index among)
      (∀ c ∈ among, ∀ name, c.parent = some name → ∃ p ∈ classes, p.name = name) := by
  induction among with
  | nil => exact .success (by simp)
  | cons c rest ih =>
    unfold checkParents
    cases parent : c.parent with
    | none =>
      refine ih.congr ?_
      simp [parent]
    | some name =>
      by_cases known : name ∈ index
      · simp only [known,if_true]
        refine ih.congr ?_
        simp [parent,← indexes.mem_iff,known]
      · simp only [known,if_false]
        refine .failure (fun all => known ?_) rfl
        exact indexes.mem_iff.mpr (all c List.mem_cons_self name parent)

/-- Above every class there is a root. -/
theorem root_exists (acyclic : Acyclic classes) (declared : ParentsDeclared classes)
    (nonempty : classes ≠ []) : ∃ c, c ∈ classes ∧ c.parent = none := by
  obtain ⟨c,member⟩ := List.exists_mem_of_ne_nil classes nonempty
  obtain ⟨l,ascent⟩ := ascent_of_acyclic indexes acyclic member
  obtain ⟨top,last,stop⟩ := ascent.getLast
  have within := indexes.ascent_within ascent member top (List.mem_of_getLast? last)
  refine ⟨top,within,?_⟩
  cases parent : top.parent with
  | none => rfl
  | some name =>
    obtain ⟨p,mp,rfl⟩ := declared top within name parent
    rw [indexes.parent?_eq_some.mpr ⟨mp,parent⟩] at stop
    cases stop

theorem checkRoots_decides (acyclic : Acyclic classes) (declared : ParentsDeclared classes)
    (nonempty : classes ≠ []) :
    Decides .roots (checkRoots classes) (∃! c, c ∈ classes ∧ c.parent = none) := by
  have isRoot (c : ClassDecl) : c ∈ classes.filter (·.isRoot) ↔ c ∈ classes ∧ c.parent = none := by
    rw [List.mem_filter,ClassDecl.isRoot,Option.isNone_iff_eq_none]
  have nodup : (classes.filter (·.isRoot)).Nodup := indexes.nodup.filter _
  have several : ¬1 < (rootNames classes).length ↔ ∃! c, c ∈ classes ∧ c.parent = none := by
    simp only [rootNames,List.length_map,← isRoot]
    obtain ⟨root,member⟩ := root_exists indexes acyclic declared nonempty
    rw [← isRoot] at member
    cases roots : classes.filter (·.isRoot) with
    | nil =>
      rw [roots] at member
      cases member
    | cons first others =>
      cases others with
      | nil => simp [ExistsUnique]
      | cons second others =>
        rw [roots] at nodup
        refine iff_of_false (by simp) ?_
        rintro ⟨c,_,only⟩
        have same := (only first (by simp)).trans (only second (by simp)).symm
        simp [same] at nodup
  unfold checkRoots
  exact Decides.congr (Decides.guard rfl fun _ => .success trivial) (by simpa using several)

end Hierarchy
/-- Of the checks, this is the first whose requirement fails. -/
def FirstFailing (classes : List ClassDecl) (checks : List Check) (check : Check) : Prop :=
  ∃ before after, checks = before ++ check :: after ∧
    (∀ earlier ∈ before, Requires classes earlier) ∧ ¬Requires classes check

/-- A run of several passes: all that they require holds, or the error is that of the first pass
whose requirement fails. -/
structure Settles (classes : List ClassDecl) (checks : List Check) (run : Except LoadError α) :
    Prop where
  sound : ∀ a, run = .ok a → ∀ check ∈ checks, Requires classes check
  refuted : ∀ e, run = .error e → FirstFailing classes checks e.check

namespace Settles

variable {classes : List ClassDecl} {check : Check} {checks : List Check}

theorem done {a : α} : Settles classes [] (.ok a : Except LoadError α) := ⟨by simp,nofun⟩

theorem failure {e : LoadError} (fails : ¬Requires classes e.check) :
    Settles classes (e.check :: checks) (.error e : Except LoadError α) :=
  ⟨nofun,fun _ same => Except.error.inj same ▸ ⟨[],checks,rfl,by simp,fails⟩⟩

theorem pass {first : Except LoadError α} {next : α → Except LoadError β}
    (decides : Decides check first (Requires classes check))
    (later : ∀ a, first = .ok a → Settles classes checks (next a)) :
    Settles classes (check :: checks) (first >>= next) := by
  cases result : first with
  | error e =>
    obtain ⟨fails,rfl⟩ := decides.refuted e result
    exact failure fails
  | ok a =>
    have holds := decides.sound a result
    have rest := later a result
    constructor
    · intro b run
      exact List.forall_mem_cons.mpr ⟨holds,rest.sound b run⟩
    · intro e run
      obtain ⟨before,after,shape,passed,fails⟩ := rest.refuted e run
      exact ⟨check :: before,after,by rw [shape,List.cons_append],
        List.forall_mem_cons.mpr ⟨holds,passed⟩,fails⟩

end Settles

namespace Database

variable {classes : List ClassDecl} {constants : NameMap Int64}

/-- Each pass may rely on what the passes before it require. -/
theorem validate_settles (nonempty : classes ≠ []) :
    Settles classes Check.passes (validate classes) := by
  have names : Decides .classNames (Names.indexFrom ∅ classes) (Requires classes .classNames) :=
    (Names.indexFrom_decides classes).congr (by simp [Requires,nonempty])
  refine .pass names fun index run => ?_
  have indexes : Indexes index classes := Names.indexFrom_indexes Indexes.empty run
  refine .pass (Names.checkSingletons_decides indexes) fun _ _ => ?_
  refine .pass (Hierarchy.checkParents_decides indexes classes) fun _ run => ?_
  have declared : ParentsDeclared classes :=
    (Hierarchy.checkParents_decides indexes classes).ok.mp run
  rw [Hierarchy.check_eq_bind,bind_assoc]
  refine .pass (Hierarchy.checkCycles_decides indexes) fun _ run => ?_
  have acyclic : Acyclic classes := (Hierarchy.checkCycles_decides indexes).ok.mp run
  refine .pass (Hierarchy.checkRoots_decides indexes acyclic declared nonempty) fun _ _ => ?_
  exact .pass (Members.check_decides indexes acyclic classes (fun _ member => member))
    fun _ _ => .done

/-- What is loaded is what was given, with its index and parents first. -/
structure Loaded (classes : List ClassDecl) (constants : NameMap Int64) (db : Database) :
    Prop where
  acceptable : Acceptable classes
  perm : db.classes.Perm classes
  parentsFirst : ParentsFirst db.classes
  indexes : Indexes db.index db.classes
  validated : validate classes = .ok db.index
  constants : db.constants = constants

theorem validate_indexes {index : ClassIndex} (run : validate classes = .ok index) :
    Indexes index classes := by
  obtain ⟨made,named,run⟩ := bind_eq_ok.mp run
  obtain ⟨_,_,run⟩ := bind_eq_ok.mp run
  obtain ⟨_,_,run⟩ := bind_eq_ok.mp run
  obtain ⟨_,_,run⟩ := bind_eq_ok.mp run
  obtain ⟨_,_,run⟩ := bind_eq_ok.mp run
  obtain rfl : made = index := Except.ok.inj run
  exact Names.indexFrom_indexes Indexes.empty named

theorem ofClasses_loaded (constants : NameMap Int64) {index : ClassIndex} (nonempty : classes ≠ [])
    (run : validate classes = .ok index) :
    ∃ db, ofClasses classes constants = .ok db ∧ Loaded classes constants db := by
  have acceptable := acceptable_iff.mpr ((validate_settles nonempty).sound index run)
  have indexes := validate_indexes run
  have perm := Hierarchy.order_perm indexes acceptable.parents acceptable.acyclic
  have parentsFirst := Hierarchy.order_parentsFirst indexes acceptable.parents acceptable.acyclic
  have ordered : Hierarchy.order index classes ≠ [] :=
    fun none => nonempty (by simpa [none] using perm)
  have distinct := (perm.map (·.name)).nodup_iff.mpr acceptable.distinct
  have ordering := Indexes.ofClasses distinct
  have same : index = ClassIndex.ofClasses (Hierarchy.order index classes) :=
    (indexes.perm perm.symm).unique ordering
  refine ⟨{ classes := Hierarchy.order index classes, constants, nonempty := ordered },?_,
    acceptable,perm,parentsFirst,ordering,run.trans (congrArg _ same),rfl⟩
  simp [ofClasses,nonempty,run,ordered]

theorem ofClasses_error {e : LoadError} (nonempty : classes ≠ [])
    (run : validate classes = .error e) : ofClasses classes constants = .error e := by
  simp [ofClasses,nonempty,run]

/-- Loading adds nothing to validation but the order of the classes. -/
theorem ofClasses_settles (classes : List ClassDecl) (constants : NameMap Int64) :
    Settles classes Check.passes (ofClasses classes constants) := by
  by_cases nonempty : classes = []
  · subst nonempty
    exact Settles.failure (e := .empty) fun names => names.1 rfl
  have settles := validate_settles nonempty
  cases run : validate classes with
  | error e =>
    rw [ofClasses_error nonempty run]
    exact ⟨nofun,fun _ same => Except.error.inj same ▸ settles.refuted e run⟩
  | ok index =>
    obtain ⟨db,made,_⟩ := ofClasses_loaded constants nonempty run
    rw [made]
    exact ⟨fun _ _ => settles.sound index run,nofun⟩

theorem loaded_of_ok {db : Database} (run : ofClasses classes constants = .ok db) :
    Loaded classes constants db := by
  have acceptable := acceptable_iff.mpr ((ofClasses_settles classes constants).sound db run)
  cases validated : validate classes with
  | error e =>
    rw [ofClasses_error acceptable.nonempty validated] at run
    cases run
  | ok index =>
    obtain ⟨made,same,loaded⟩ :=
      ofClasses_loaded constants acceptable.nonempty validated
    obtain rfl := Except.ok.inj (same.symm.trans run)
    exact loaded

/-- A list loads exactly if it is acceptable, in whatever order its classes are given; if not, the
error belongs to the first pass, of all that run, whose requirement fails. -/
theorem loads_iff_acceptable (classes : List ClassDecl) (constants : NameMap Int64) :
    ((∃ db, ofClasses classes constants = .ok db) ↔ Acceptable classes) ∧
      ∀ e, ofClasses classes constants = .error e →
        FirstFailing classes Check.passes e.check := by
  have settles := ofClasses_settles classes constants
  refine ⟨⟨?_,?_⟩,settles.refuted⟩
  · rintro ⟨db,run⟩
    exact acceptable_iff.mpr (settles.sound db run)
  · intro acceptable
    cases run : ofClasses classes constants with
    | ok db => exact ⟨db,rfl⟩
    | error e =>
      obtain ⟨before,after,shape,_,fails⟩ := settles.refuted e run
      refine absurd (acceptable_iff.mp acceptable e.check ?_) fails
      exact shape ▸ List.mem_append_right before List.mem_cons_self

end Database
end ObjectBridge
