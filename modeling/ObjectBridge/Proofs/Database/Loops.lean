import ObjectBridge.Proofs.Database.Acceptance

/-! What the check of the parent relation reports. A cycle is reported as a closed walk that starts
where the first walk without an end runs into it; without a cycle the roots decide, and there is one
at least. -/
namespace ObjectBridge

section Relation

variable {R : α → α → Prop} {l : List α} {a c x z : α}

theorem exists_next (chain : (l ++ [z]).IsChain R) (member : x ∈ l) :
    ∃ y ∈ (l ++ [z]).tail, R x y := by
  induction l with
  | nil => cases member
  | cons a l ih =>
    rw [List.cons_append,List.isChain_cons] at chain
    rw [List.cons_append,List.tail_cons]
    rcases List.mem_cons.mp member with rfl | member
    · obtain ⟨y,first⟩ : ∃ y, (l ++ [z]).head? = some y := by cases l <;> simp
      exact ⟨y,List.mem_of_head? first,chain.1 y first⟩
    · obtain ⟨y,my,step⟩ := ih chain.2 member
      exact ⟨y,List.mem_of_mem_tail my,step⟩

variable (unique : Relator.RightUnique R)
include unique

/-- A closed walk has all that can be reached from where it starts. -/
theorem mem_of_reach (chain : (c :: l ++ [c]).IsChain R)
    (reach : Relation.ReflTransGen R c x) : x ∈ c :: l := by
  induction reach with
  | refl => exact List.mem_cons_self
  | tail _ step ih =>
    obtain ⟨z,mz,other⟩ := exists_next chain ih
    obtain rfl := unique step other
    simpa [or_comm] using mz

/-- What is reached from a cycle is on it. -/
theorem reaches_back (cycle : Relation.TransGen R a a) (reach : Relation.ReflTransGen R a c) :
    Relation.ReflTransGen R c a := by
  induction reach with
  | refl => exact .refl
  | tail _ step back =>
    obtain ⟨z,other,rest⟩ := Relation.TransGen.head'_iff.mp (Relation.TransGen.trans_right back cycle)
    exact unique step other ▸ rest

end Relation

/-- Going up from the first class, the second is the first one that is met on a cycle. -/
inductive Meets (classes : List ClassDecl) : ClassDecl → ClassDecl → Prop where
  | here : Relation.TransGen (Parent classes) c c → Meets classes c c
  | above : ¬Relation.TransGen (Parent classes) c c → Parent classes c p → Meets classes p m →
      Meets classes c m

theorem Meets.of_chain {classes tail : List ClassDecl} {start c : ClassDecl}
    (chain : (tail ++ [c]).IsChain (Parent classes))
    (apart : ∀ a ∈ tail, ¬Relation.TransGen (Parent classes) a a)
    (cycle : Relation.TransGen (Parent classes) c c)
    (front : (tail ++ [c]).head? = some start) : Meets classes start c := by
  induction tail generalizing start with
  | nil =>
    obtain rfl : c = start := by simpa using front
    exact .here cycle
  | cons a tail ih =>
    obtain rfl : a = start := by simpa using front
    obtain ⟨first,rest⟩ := List.isChain_cons.mp chain
    obtain ⟨apart,others⟩ := List.forall_mem_cons.mp apart
    obtain ⟨p,front⟩ : ∃ p, (tail ++ [c]).head? = some p := by cases tail <;> simp
    exact .above apart (first p front) (ih rest others front)

/-- A closed walk along parents, each class of it once but for the first, which is also the last. -/
structure ClosedWalk (classes : List ClassDecl) (path : List String) : Prop where
  length : 2 ≤ path.length
  closed : path.head? = path.getLast?
  distinct : path.dropLast.Nodup
  parents : path.IsChain fun a b => ∃ c ∈ classes, c.name = a ∧ c.parent = some b

namespace Hierarchy

variable {index : ClassIndex} {classes full : List ClassDecl} {start c : ClassDecl}

namespace Loops

theorem shape (loops : Loops index classes full c) : ∃ tail loop,
    full.reverse = tail ++ c :: loop ∧ closedWalk full c = (c :: loop ++ [c]).map (·.name) := by
  obtain ⟨tail,loop,shape⟩ := List.append_of_mem (List.mem_reverse.mpr loops.again)
  refine ⟨tail,loop,shape,?_⟩
  have distinct := loops.walking.distinct_reverse
  rw [shape,List.map_append,List.nodup_append] at distinct
  have other : ∀ name ∈ tail.map (·.name), (name != c.name) = true := by
    intro name member
    exact bne_iff_ne.mpr (distinct.2.2 name member c.name (by simp))
  simp [closedWalk,shape,List.dropWhile_append_of_pos other]

variable (indexes : Indexes index classes)
include indexes

theorem isChain (loops : Loops index classes full c) :
    (full.reverse ++ [c]).IsChain (Parent classes) := by
  have within : ∀ d ∈ full.reverse ++ [c], d ∈ classes := by
    intro d member
    simp only [List.mem_append,List.mem_reverse,List.mem_singleton] at member
    rcases member with member | rfl
    · exact loops.walking.within d member
    · exact loops.walking.now_mem d rfl
  refine (loops.walking.trail.isChain rfl).imp_of_mem_imp ?_
  intro a b ma _ step
  exact (indexes.parent_iff (within a ma)).mp step

/-- What is reported is the cycle that the walk ran into, from the first class of it that was met. -/
theorem reports (loops : Loops index classes full c)
    (front : [start] <+: full.reverse ++ [c]) :
    ClosedWalk classes (closedWalk full c) ∧ Meets classes start c := by
  obtain ⟨tail,loop,shape,names⟩ := loops.shape
  have chain := loops.isChain indexes
  have distinct := loops.walking.distinct_reverse
  have cycle : Relation.TransGen (Parent classes) c c :=
    (indexes.above_iff (loops.walking.within c loops.again)).mp loops.cyclic
  rw [shape] at chain distinct front
  have first : (tail ++ [c]).head? = some start := by
    obtain ⟨rest,same⟩ := front
    have heads := congrArg List.head? same
    cases tail <;> simpa using heads.symm
  have round : (c :: loop ++ [c]).IsChain (Parent classes) := by
    rw [List.append_assoc] at chain
    exact chain.right_of_append
  constructor
  · rw [List.map_append] at distinct
    rw [names,List.map_append,List.map_singleton]
    refine ⟨by simp,?_,?_,?_⟩
    · rw [List.getLast?_concat]
      rfl
    · rw [List.dropLast_concat]
      exact (List.nodup_append.mp distinct).2.1
    · rw [← List.map_singleton,← List.map_append,List.isChain_map]
      exact round.imp fun a _ parent => ⟨a,parent.1,rfl,parent.2.2⟩
  · refine .of_chain ?_ ?_ cycle first
    · rw [List.append_assoc,List.cons_append,List.append_cons] at chain
      exact chain.left_of_append
    · intro a ma own
      have met : a ∈ full := List.mem_reverse.mp (by simp [shape,ma])
      have reach := (indexes.above_iff (loops.walking.within a met)).mp
        (loops.walking.trail.reaches met)
      have back := reaches_back indexes.parent_unique own reach.to_reflTransGen
      have again := mem_of_reach indexes.parent_unique round back
      exact (List.nodup_append.mp (distinct.of_map _)).2.2 a ma a again rfl

omit indexes in
/-- A walk into a cycle never ends. -/
theorem endless (loops : Loops index classes full c)
    (front : [start] <+: full.reverse ++ [c]) : ¬Ends index start := by
  rintro ⟨l,ascent⟩
  have reach : Relation.ReflTransGen (fun a b => index.parent? a = some b) start c := by
    have member := front.subset List.mem_cons_self
    simp only [List.mem_append,List.mem_reverse,List.mem_singleton] at member
    rcases member with member | rfl
    · exact (loops.walking.trail.reaches member).to_reflTransGen
    · exact .refl
  obtain ⟨_,_,_,rest⟩ := ascent.of_mem (ascent.mem_iff.mpr reach)
  exact rest.acyclic loops.cyclic

end Loops

/-- The walk from the first class whose walk never ends runs into a cycle at the class of the name. -/
def RunsInto (index : ClassIndex) (classes : List ClassDecl) (name : String) : Prop :=
  ∃ before start after m, classes = before ++ start :: after ∧ (∀ d ∈ before, Ends index d) ∧
    ¬Ends index start ∧ Meets classes start m ∧ m.name = name

/-- What a check of the parent relation says is so, and what is so it says. -/
structure TellsShape (index : ClassIndex) (classes : List ClassDecl) (run : Except LoadError Unit) :
    Prop where
  cyclic : (∃ path, run = .error (.cycle path)) ↔ ¬Acyclic classes
  cycle : ∀ path, run = .error (.cycle path) →
    ClosedWalk classes path ∧ ∃ name, path.head? = some name ∧ RunsInto index classes name
  several : Acyclic classes → 1 < (classes.filter (·.parent = none)).length →
    run = .error (.severalRoots ((classes.filter (·.parent = none)).map (·.name)))
  single : Acyclic classes → (classes.filter (·.parent = none)).length = 1 → run = .ok ()
  rooted : Acyclic classes → classes ≠ [] → ∃ c ∈ classes, c.parent = none

theorem rootNames_eq (classes : List ClassDecl) :
    rootNames classes = (classes.filter (·.parent = none)).map (·.name) := by
  unfold rootNames
  congr 1
  apply List.filter_congr
  intro c _
  rw [ClassDecl.isRoot,Bool.eq_iff_iff,Option.isNone_iff_eq_none,decide_eq_true_eq]

section

variable (indexes : Indexes index classes)
include indexes

theorem check_of_acyclic (acyclic : Acyclic classes) : check index classes =
    if 1 < (classes.filter (·.parent = none)).length then
      .error (.severalRoots ((classes.filter (·.parent = none)).map (·.name)))
    else .ok () := by
  rw [check,(checkCycles_decides indexes).ok.mpr acyclic]
  simp only [checkRoots,rootNames_eq,List.length_map]

theorem check_of_cyclic (cyclic : ¬Acyclic classes) : ∃ path,
    check index classes = .error (.cycle path) ∧ ClosedWalk classes path ∧
      ∃ name, path.head? = some name ∧ RunsInto index classes name := by
  cases run : checkCycles index [] classes with
  | ok _ => exact absurd ((checkCycles_decides indexes).ok.mp run) cyclic
  | error e =>
    obtain ⟨before,start,after,full,c,shape,ends,rfl,loops,front⟩ :=
      checkCycles_error indexes (by simp) (fun _ member => member) run
    obtain ⟨closed,meets⟩ := loops.reports indexes front
    obtain ⟨tail,loop,_,names⟩ := loops.shape
    refine ⟨_,by rw [check,run],closed,c.name,by simp [names],?_⟩
    exact ⟨before,start,after,c,shape,ends,loops.endless front,meets,rfl⟩

end

/-- For classes of different names with their parents declared, the check of the parent relation
tells the truth. -/
theorem check_tells_shape {classes : List ClassDecl} (distinct : (classes.map (·.name)).Nodup)
    (declared : ParentsDeclared classes) :
    TellsShape (ClassIndex.ofClasses classes) classes
      (check (ClassIndex.ofClasses classes) classes) := by
  have indexes := Indexes.ofClasses distinct
  generalize ClassIndex.ofClasses classes = index at indexes ⊢
  have rest (acyclic : Acyclic classes) := check_of_acyclic indexes acyclic
  constructor
  case cyclic =>
    constructor
    · rintro ⟨path,run⟩ acyclic
      rw [rest acyclic] at run
      split at run <;> cases run
    · intro cyclic
      obtain ⟨path,run,_⟩ := check_of_cyclic indexes cyclic
      exact ⟨path,run⟩
  case cycle =>
    intro path run
    by_cases acyclic : Acyclic classes
    · rw [rest acyclic] at run
      split at run <;> cases run
    · obtain ⟨other,same,reported⟩ := check_of_cyclic indexes acyclic
      obtain rfl : other = path := by simpa [same] using run
      exact reported
  case several => exact fun acyclic many => (rest acyclic).trans (if_pos many)
  case single =>
    intro acyclic one
    rw [rest acyclic,one,if_neg (Nat.lt_irrefl 1)]
  case rooted => exact fun acyclic nonempty => root_exists indexes acyclic declared nonempty

/-- Two walks without an end: a tail leads into a cycle of two classes, and a class is its own
parent. -/
def knots : List ClassDecl :=
  [{ name := "Object" },{ name := "Leaf", parent := some "Egg" },
   { name := "Self", parent := some "Self" },{ name := "Hen", parent := some "Egg" },
   { name := "Egg", parent := some "Hen" }]

theorem leaf_runs_into_egg : (knots.map (·.name)).Nodup ∧ ParentsDeclared knots ∧
    check (ClassIndex.ofClasses knots) knots = .error (.cycle ["Egg","Hen","Egg"]) ∧
    RunsInto (ClassIndex.ofClasses knots) knots "Egg" := by
  have distinct : (knots.map (·.name)).Nodup := by decide
  have declared : ParentsDeclared knots := by simp [ParentsDeclared,knots]
  have run : check (ClassIndex.ofClasses knots) knots = .error (.cycle ["Egg","Hen","Egg"]) := rfl
  obtain ⟨_,name,first,into⟩ := (check_tells_shape distinct declared).cycle _ run
  obtain rfl : "Egg" = name := Option.some.inj first
  exact ⟨distinct,declared,run,into⟩

end Hierarchy
end ObjectBridge
