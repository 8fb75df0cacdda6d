import ObjectBridge.Proofs.Database.Metered
import ObjectBridge.Proofs.Database.Permutation

/-! No list of classes makes loading loop. The guarded search for cycles ends on every list, and the
walks after it only run where it found no cycle, so that each is a part of a lineage. With fuel for
each class a metered run therefore says what the run without a meter says. -/
namespace ObjectBridge.Metered

/-- An unguarded walk as it should be: up along parents that make no cycle, past no class twice. -/
structure Rises (classes visited : List ClassDecl) : Prop where
  acyclic : Acyclic classes
  upward : visited.IsChain (Parent classes)
  within : ∀ c ∈ visited, c ∈ classes
  once : (visited.map (·.name)).Nodup

section

variable {fuel : Nat} {index : ClassIndex} {classes : List ClassDecl} {c : ClassDecl}
  (indexes : Indexes index classes)

section

include indexes in
/-- On a cycle an unguarded walk that nobody answers exhausts every fuel. -/
theorem search_endless (cycle : Relation.TransGen (Parent classes) c c) (fuel : Nat)
    (log : List (List ClassDecl)) :
    (search fuel index (fun _ => (none : Option β)) (some c)).run.run log = none := by
  obtain ⟨d,parent,_⟩ := Relation.TransGen.head'_iff.mp cycle
  cases run : travel index.parent? (fun _ _ => (none : Option β)) fuel [] (some c) with
  | none => exact congrArg (Option.map _) run
  | some trip =>
    obtain ⟨l,ascent⟩ := Trip.travel_ends_iff.mp ⟨fuel,[],trip,run⟩
    exact absurd ((indexes.above_iff parent.1).mpr cycle) ascent.acyclic

variable (acyclic : Acyclic classes)
include indexes acyclic

theorem rises_of_prefix {visited : List ClassDecl} (member : c ∈ classes)
    (front : visited <+: index.lineage c) : Rises classes visited := by
  have ascent := indexes.lineage_ascent acyclic member
  have within : ∀ d ∈ visited, d ∈ classes :=
    fun d md => indexes.ascent_within ascent member d (front.subset md)
  refine ⟨acyclic,?_,within,indexes.names_nodup within (ascent.nodup.sublist front.sublist)⟩
  have steps := ascent.isChain
  obtain ⟨rest,shape⟩ := front
  rw [← shape] at steps
  exact steps.left_of_append.imp_of_mem_imp fun a b ma _ step =>
    (indexes.parent_iff (within a ma)).mp step

variable (enough : classes.length ≤ fuel) {start : Option ClassDecl}
  (declared : ∀ c, start = some c → c ∈ classes)

include enough declared in
/-- Without a cycle an unguarded walk is a trip along a lineage. -/
theorem search_run (answer : ClassDecl → Option β) (log : List (List ClassDecl)) :
    (search fuel index answer start).run.run log =
      some (.ok (Trip.along answer (start.elim [] index.lineage)),
        log ++ [(Trip.along answer (start.elim [] index.lineage)).visited]) := by
  cases start with
  | none => cases fuel <;> rfl
  | some c =>
    have ascent := indexes.lineage_ascent acyclic (declared c rfl)
    have within := indexes.ascent_within ascent (declared c rfl)
    have short := (List.subperm_of_subset ascent.nodup within).length_le
    have run := Trip.travel_of_ascent ascent answer [] (short.trans enough)
    rw [List.append_nil] at run
    exact congrArg (Option.map _) run

include declared in
theorem rises_along (answer : ClassDecl → Option β) :
    Rises classes (Trip.along answer (start.elim [] index.lineage)).visited := by
  have front := Trip.visited_along answer (start.elim [] index.lineage)
  cases start with
  | none =>
    have none := List.prefix_nil.mp front
    rw [none]
    exact ⟨acyclic,.nil,by simp,by simp⟩
  | some c => exact rises_of_prefix indexes acyclic (declared c rfl) front

include enough

include declared in
theorem search_yields (answer : ClassDecl → Option β) :
    Yields (Rises classes) (search fuel index answer start)
      (.ok (Trip.along answer (start.elim [] index.lineage))) := by
  intro log
  refine ⟨_,search_run indexes acyclic enough declared answer log,?_⟩
  intro visited member
  rw [List.mem_singleton.mp member]
  exact rises_along indexes acyclic declared answer

theorem findMethod?_yields (member : c ∈ classes) (name : String) :
    Yields (Rises classes) (findMethod? fuel index c name) (.ok (index.findMethod? c name)) := by
  have declared : ∀ d, some c = some d → d ∈ classes := fun d same => Option.some.inj same ▸ member
  refine (search_yields indexes acyclic enough declared (·.method? name)).step ?_
  rw [Trip.answer?_along]
  exact .pure

theorem isBelow_yields (sub sup : String) :
    Yields (Rises classes) (isBelow fuel index sub sup) (.ok (index.isBelow sub sup)) := by
  refine (search_yields indexes acyclic enough (fun d found => indexes.member found) _).step ?_
  have below : ((index[sub]?.elim [] index.lineage).findSome? fun c =>
      if c.name == sup then some () else none).isSome = index.isBelow sub sup := by
    unfold ClassIndex.isBelow
    cases index[sub]? with
    | none => rfl
    | some c =>
      rw [Option.elim_some,Bool.eq_iff_iff,List.findSome?_isSome_iff,List.any_eq_true]
      simp
  rw [Trip.answer?_along,below]
  exact .pure

theorem assignable_yields (value target : Tag) :
    Yields (Rises classes) (assignable fuel index value target)
      (.ok (index.assignable value target)) := by
  unfold assignable
  fun_cases ClassIndex.assignable index value target with
  | case1 =>
    rw [if_pos rfl]
    exact .pure
  | case2 _ differ | case3 differ | case4 _ differ =>
    rw [if_neg differ]
    exact .pure
  | case5 sub sup differ =>
    rw [if_neg differ]
    exact isBelow_yields indexes acyclic enough sub sup
  | case6 _ _ differ toVariant widen object below =>
    rw [if_neg differ]
    split
    · exact (toVariant rfl).elim
    · exact (widen rfl rfl).elim
    · exact (object _ rfl rfl).elim
    · exact (below _ _ rfl rfl).elim
    · exact .pure

theorem getterFault?_yields (p : PropertyDecl) (m : MethodDecl) :
    Yields (Rises classes) (getterFault? fuel index p m)
      (.ok (Members.getterFault? index p m)) := by
  unfold getterFault? Members.getterFault?
  split
  · exact .pure
  · by_cases any : m.returns = .variant
    · simp only [any,true_or,if_true]
      exact .pure
    · simp only [any,false_or,if_false]
      refine (assignable_yields indexes acyclic enough m.returns p.tag).step ?_
      split <;> exact .pure

theorem setterFault?_yields (p : PropertyDecl) (m : MethodDecl) :
    Yields (Rises classes) (setterFault? fuel index p m)
      (.ok (Members.setterFault? index p m)) := by
  unfold setterFault?
  fun_cases Members.setterFault? index p m with
  | case1 param single fits | case2 param single fits =>
    simp only [single]
    refine (assignable_yields indexes acyclic enough p.tag param).step ?_
    simp only [fits]
    exact .pure
  | case3 several =>
    split
    · rename_i single
      exact (several _ single).elim
    · exact .pure

theorem checkAccessor_yields (member : c ∈ classes) (p : PropertyDecl) (accessor : String)
    {fault? : MethodDecl → Metered (Option String)} {reason? : MethodDecl → Option String}
    (yields : ∀ m, Yields (Rises classes) (fault? m) (.ok (reason? m))) :
    Yields (Rises classes) (checkAccessor fuel index c p accessor fault?)
      (Members.checkAccessor index c p accessor reason?) := by
  refine (findMethod?_yields indexes acyclic enough member accessor).step ?_
  unfold Members.checkAccessor
  cases index.findMethod? c accessor with
  | none => exact .throw
  | some m =>
    refine (yields m).step ?_
    simp only
    cases reason? m with
    | none => exact .pure
    | some reason => exact .throw

theorem checkProperty_yields (member : c ∈ classes) (p : PropertyDecl) :
    Yields (Rises classes) (checkProperty fuel index c p) (Members.checkProperty index c p) := by
  refine Yields.ofExcept.bind fun _ _ => ?_
  refine (checkAccessor_yields indexes acyclic enough member p p.getter
    (getterFault?_yields indexes acyclic enough p)).bind fun _ _ => ?_
  cases p.setter with
  | none => exact .pure
  | some setter =>
    exact checkAccessor_yields indexes acyclic enough member p setter
      (setterFault?_yields indexes acyclic enough p)

theorem checkClass_yields (member : c ∈ classes) :
    Yields (Rises classes) (checkClass fuel index c) (Members.checkClass index c) :=
  Yields.ofExcept.bind fun _ _ => .forM rfl (fun _ _ => rfl) fun p _ =>
    checkProperty_yields indexes acyclic enough member p

/-- What a class adds to those that are placed. -/
theorem place_yields (member : c ∈ classes) (placed : List ClassDecl) :
    Yields (Rises classes) (place fuel index placed c) (.ok (Hierarchy.place index placed c)) := by
  have declared : ∀ d, some c = some d → d ∈ classes := fun d same => Option.some.inj same ▸ member
  refine (search_yields indexes acyclic enough declared _).step ?_
  have ascent := indexes.lineage_ascent acyclic member
  have climbed := ascent.climb_eq (fun a => placed.any (·.name == a.name))
    (indexes.ascent_length_le ascent member)
  have same : (fun a : ClassDecl =>
      (if placed.any (·.name == a.name) then some () else none).isNone) =
        fun a => !placed.any (·.name == a.name) := by
    funext a
    cases placed.any (·.name == a.name) <;> rfl
  simp only [Hierarchy.place,climbed,Trip.along,same,List.reverse_reverse]
  exact .pure

theorem order_yields : Yields (Rises classes) (order fuel index classes)
    (.ok (Hierarchy.order index classes)) := by
  have fold (rest placed : List ClassDecl) (among : ∀ c ∈ rest, c ∈ classes) :
      Yields (Rises classes) (rest.foldlM (place fuel index) placed)
        (.ok (rest.foldl (Hierarchy.place index) placed)) := by
    induction rest generalizing placed with
    | nil => exact .pure
    | cons c rest ih =>
      rw [List.foldlM_cons,List.foldl_cons]
      exact (place_yields indexes acyclic enough (among c List.mem_cons_self) placed).step
        (ih _ fun d md => among d (List.mem_cons_of_mem c md))
  exact (fold classes [] fun _ member => member).step .pure

end

include indexes

/-- A walk looks at no class twice but for the one that shows the cycle, so there is fuel for each
class that it leaves behind. -/
theorem travel_guard {settled : List String} {path : List ClassDecl} {now : Option ClassDecl}
    (walking : Hierarchy.Walking index classes path now) {spare more : Nat}
    (paid : classes.length ≤ path.length + spare) (budget : path.length + more = index.size + 1) :
    (travel index.parent? (guard settled) spare path now).map outcome =
      some (Hierarchy.walk index settled more path now) := by
  -- on the fuel without a meter; neither runs out, for the classes of a path differ
  induction more generalizing path now spare with
  | zero =>
    have few := indexes.length_le walking.within walking.distinct
    omega
  | succ more ih =>
    cases now with
    | none => cases spare <;> rfl
    | some c =>
      have member := walking.now_mem c rfl
      have test := indexes.any_name_eq walking.within member
      by_cases known : c.name ∈ settled
      · simp [travel,guard,known,Hierarchy.walk,outcome,Trip.answer?]
      by_cases met : c ∈ path
      · simp [travel,guard,known,test,met,Hierarchy.walk,outcome,Trip.answer?]
      have on := walking.next indexes met
      have few := (List.subperm_of_subset (on.distinct.of_map _) on.within).length_le
      rw [List.length_cons] at few
      obtain ⟨spare,rfl⟩ : ∃ left, spare = left + 1 := ⟨spare - 1,by omega⟩
      have paid' : classes.length ≤ (c :: path).length + spare := by
        rw [List.length_cons]
        omega
      have rest := ih on paid' (by rw [List.length_cons]; omega)
      simpa [travel,guard,known,test,met,Hierarchy.walk] using rest

variable {fine : List ClassDecl → Prop} (enough : classes.length ≤ fuel)
include enough

theorem walk_yields (settled : List String) (member : c ∈ classes) :
    Yields fine (walk fuel index settled c)
      (Hierarchy.walk index settled (index.size + 1) [] (some c)) := by
  intro log
  have run : (travel index.parent? (guard settled) fuel [] (some c)).map outcome =
      some (Hierarchy.walk index settled (index.size + 1) [] (some c)) :=
    travel_guard indexes (.start member) (by simpa using enough) (Nat.zero_add _)
  obtain ⟨trip,ends,same⟩ := Option.map_eq_some_iff.mp run
  refine ⟨[],?_,by simp⟩
  rw [List.append_nil,← same]
  exact congrArg (Option.map _) ends

theorem checkCycles_yields (settled : List String) (rest : List ClassDecl)
    (among : ∀ c ∈ rest, c ∈ classes) :
    Yields fine (checkCycles fuel index settled rest)
      (Hierarchy.checkCycles index settled rest) := by
  induction rest generalizing settled with
  | nil => exact .pure
  | cons c rest ih =>
    have step : Hierarchy.checkCycles index settled (c :: rest) =
        Hierarchy.walk index settled (index.size + 1) [] (some c) >>= fun path =>
          Hierarchy.checkCycles index (path.map (·.name) ++ settled) rest := by
      rw [Hierarchy.checkCycles]
      cases Hierarchy.walk index settled (index.size + 1) [] (some c) <;> rfl
    rw [step]
    exact (walk_yields indexes enough settled (among c List.mem_cons_self)).bind fun path _ =>
      ih _ fun d md => among d (List.mem_cons_of_mem c md)

/-- The check of the parent relation ends whatever cycles there are. -/
theorem checkShape_yields :
    Yields fine (checkShape fuel index classes) (Hierarchy.check index classes) := by
  rw [Hierarchy.check_eq_bind]
  exact (checkCycles_yields indexes enough [] classes fun _ member => member).bind fun _ _ =>
    .ofExcept

end

variable {fuel : Nat} {classes : List ClassDecl}

theorem validate_yields (enough : classes.length ≤ fuel) :
    Yields (Rises classes) (validate fuel classes) (Database.validate classes) := by
  refine Yields.ofExcept.bind fun index named => ?_
  have indexes : Indexes index classes := Names.indexFrom_indexes Indexes.empty named
  refine Yields.ofExcept.bind fun _ _ => Yields.ofExcept.bind fun _ _ => ?_
  refine (checkShape_yields indexes enough).bind fun _ run => ?_
  rw [Hierarchy.check_eq_bind] at run
  obtain ⟨_,passed,_⟩ := bind_eq_ok.mp run
  have acyclic := (Hierarchy.checkCycles_decides indexes).ok.mp passed
  refine Yields.bind ?_ fun _ _ => .pure
  exact .forM rfl (fun _ _ => rfl) fun c member =>
    checkClass_yields indexes acyclic enough member

theorem load_yields (enough : classes.length ≤ fuel) (constants : NameMap Int64) :
    Yields (Rises classes) (load fuel classes constants)
      (Database.ofClasses classes constants) := by
  unfold load Database.ofClasses
  by_cases nonempty : classes = []
  · subst nonempty
    exact .throw
  have some : ¬classes.isEmpty = true := mt List.isEmpty_iff.mp nonempty
  rw [if_neg some,if_neg some]
  have yields := validate_yields enough
  cases validated : Database.validate classes with
  | error e =>
    rw [validated] at yields
    exact yields.fail
  | ok index =>
    rw [validated] at yields
    refine yields.step ?_
    have indexes := Database.validate_indexes validated
    have acyclic : Acyclic classes :=
      (Database.validate_settles nonempty).sound index validated .cycles (by decide)
    refine (order_yields indexes acyclic enough).step ?_
    simp only
    split
    · exact .pure
    · exact .throw

/-- The ancestors of a class are one unguarded walk, which looks at nothing else. -/
theorem ancestors_run {constants : NameMap Int64} {db : Database}
    (loaded : Database.Loaded classes constants db) (enough : classes.length ≤ fuel)
    (name : String) (log : List (List ClassDecl)) :
    (ancestors fuel db name).run.run log =
        some (.ok (db.ancestors name),log ++ [db.ancestors name]) ∧
      Rises db.classes (db.ancestors name) := by
  have acyclic : Acyclic db.classes :=
    Requires.perm loaded.perm.symm (show Requires classes .cycles from loaded.acceptable.acyclic)
  have declared : ∀ c, db.get? name = some c → c ∈ db.classes :=
    fun c found => loaded.indexes.member found
  have line : (db.get? name).elim [] db.index.lineage = db.ancestors name := by
    unfold Database.ancestors
    cases db.get? name <;> rfl
  have whole : (Trip.along (fun _ => (none : Option Unit)) (db.ancestors name)).visited =
      db.ancestors name := by
    simp [Trip.visited,Trip.along_none]
  have run := search_run loaded.indexes acyclic (loaded.perm.length_eq ▸ enough) declared
    (fun _ => (none : Option Unit)) log
  have rises := rises_along loaded.indexes acyclic declared fun _ => (none : Option Unit)
  rw [line,whole] at run rises
  refine ⟨?_,rises⟩
  rw [ancestors,ExceptT.run_bind,StateT.run_bind,run]
  simp [Trip.along_none]

/-- Loading and asking for ancestors end, with one and the same outcome for every fuel from the
number of classes on. No fuel is enough for an unguarded walk on a cycle. -/
structure NeverLoops (classes : List ClassDecl) (constants : NameMap Int64) : Prop where
  /-- The search for cycles ends whatever cycles there are. -/
  shape : (classes.map (·.name)).Nodup → ∀ fuel, classes.length ≤ fuel → ∀ log,
    (checkShape fuel (ClassIndex.ofClasses classes) classes).run.run log =
      some (Hierarchy.check (ClassIndex.ofClasses classes) classes,log)
  load : ∀ fuel, classes.length ≤ fuel → ∃ log,
    (load fuel classes constants).run.run [] =
        some (Database.ofClasses classes constants,log) ∧
      ∀ visited ∈ log, Rises classes visited
  ancestors : ∀ db, Database.ofClasses classes constants = .ok db →
    ∀ name fuel, classes.length ≤ fuel →
      (ancestors fuel db name).run.run [] = some (.ok (db.ancestors name),[db.ancestors name]) ∧
        Rises db.classes (db.ancestors name)
  /-- Without a guard a walk on a cycle has no end, unless something answers. -/
  unguarded : (classes.map (·.name)).Nodup → ∀ c, Relation.TransGen (Parent classes) c c →
    ∀ fuel log, (search fuel (ClassIndex.ofClasses classes) (fun _ => (none : Option Unit))
      (some c)).run.run log = none

/-- Whatever the classes are, no walk needs more fuel than for each of them once, and no unguarded
one starts before it is known that there is no cycle. -/
theorem loading_never_loops (classes : List ClassDecl) (constants : NameMap Int64) :
    NeverLoops classes constants := by
  constructor
  case shape =>
    intro distinct fuel enough log
    have quiet : Yields (fun _ => False) (checkShape fuel (ClassIndex.ofClasses classes) classes)
        (Hierarchy.check (ClassIndex.ofClasses classes) classes) :=
      checkShape_yields (Indexes.ofClasses distinct) enough
    obtain ⟨new,run,none⟩ := quiet log
    obtain rfl : new = [] := List.eq_nil_iff_forall_not_mem.mpr none
    rw [run,List.append_nil]
  case load =>
    intro fuel enough
    obtain ⟨log,run,rises⟩ := load_yields enough constants []
    exact ⟨log,run,rises⟩
  case ancestors =>
    intro db made name fuel enough
    exact ancestors_run (Database.loaded_of_ok made) enough name []
  case unguarded =>
    intro distinct c cycle fuel log
    exact search_endless (Indexes.ofClasses distinct) cycle fuel log

/-- A cycle is found without any unguarded walk. -/
example : (load 1 [{ name := "Ring", parent := some "Ring" }] ∅).run.run [] =
    some (.error (.cycle ["Ring","Ring"]),[]) := rfl

/-- Classes are placed with all above them that are missing; for the last one none is. -/
example : ((load 2 [{ name := "Node", parent := some "Object" },{ name := "Object" }] ∅).run.run
    []).map (fun out => out.2.map (·.map (·.name))) = some [["Node","Object"],["Object"]] := rfl

end ObjectBridge.Metered
