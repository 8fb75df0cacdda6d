import Mathlib.Algebra.BigOperators.Group.List.Basic
import Mathlib.Algebra.GroupWithZero.Nat
import ObjectBridge.Proofs.Bridge.Founding
import ObjectBridge.Report.Summary

/-! Accounting. A summary counts declarations and never looks at the tables, which have one member
for each name. So the numbers agree up to the names that are taken more than once. -/
namespace ObjectBridge

/-- The sum is as large as the greater one only if no part is less. -/
theorem sum_map_le_iff {f g : α → Nat} {l : List α} (le : ∀ a ∈ l, f a ≤ g a) :
    (l.map f).sum ≤ (l.map g).sum ∧
      ((l.map f).sum = (l.map g).sum ↔ ∀ a ∈ l, f a = g a) := by
  induction l with
  | nil => simp
  | cons a l ih =>
    obtain ⟨first,rest⟩ := List.forall_mem_cons.mp le
    obtain ⟨less,same⟩ := ih rest
    simp only [List.map_cons,List.sum_cons,List.forall_mem_cons,← same]
    omega

/-- The names under which members of a class are bound, one after another. -/
def ClassDecl.boundNames (options : Options) (c : ClassDecl) : List String :=
  (c.methods.filter (Bind.isVisible options)).map (·.name) ++ c.properties.values.map (·.name) ++
    c.signals ++ c.constants.keys

namespace Bind

variable {ids : NameMap ClassId} {options : Options} {c : ClassDecl} {own : MemberTable}

theorem members_names {pairs : List (String × Member)}
    (run : members ids options c = .ok pairs) : pairs.map (·.1) = c.boundNames options := by
  obtain ⟨methods,properties,first,second,rfl⟩ := members_eq_ok.mp run
  have named : methods.map (·.decl.name) =
      (c.methods.filter (isVisible options)).map (·.name) := by
    apply map_of_mapM first
    intro m bound made
    obtain ⟨_,_,_,_,rfl⟩ := method_eq_ok.mp made
    rfl
  have also : properties.map (·.decl.name) = c.properties.values.map (·.name) := by
    apply map_of_mapM second
    intro p bound made
    obtain ⟨_,_,rfl⟩ := property_eq_ok.mp made
    rfl
  rw [ClassDecl.boundNames,← named,← also,← Std.ExtTreeMap.map_fst_toList_eq_keys]
  simp [Function.comp_def]

theorem table_size (run : table ids options c = .ok own) :
    own.size = (c.boundNames options).dedup.length := by
  obtain ⟨pairs,listed,rfl⟩ := table_eq_ofPairs.mp run
  rw [NameMap.ofPairs_size,members_names listed]

end Bind

namespace Summary

variable {given : List ClassDecl} {constants : NameMap Int64} {db : Database} {options : Options}
  {l : Lattice}

theorem total_eq (f : ClassDecl → Nat) (classes : List ClassDecl) :
    total f classes = (classes.map f).sum := by
  induction classes with
  | nil => rfl
  | cons c classes ih => exact congrArg (f c + ·) ih

/-- What the numbers of a summary have to do with the tables of the types. -/
structure Accounts (db : Database) (options : Options) (l : Lattice) (s : Summary) : Prop where
  hidden : s.hiddenMethods ≤ s.methods
  bound : (l.types.toList.map (·.own.size)).sum ≤
    s.methods - s.hiddenMethods + s.properties + s.signals + s.constants
  tight : (l.types.toList.map (·.own.size)).sum =
      s.methods - s.hiddenMethods + s.properties + s.signals + s.constants ↔
    ∀ c ∈ db.classes, (c.boundNames options).Nodup
  /-- The depth is the length of some chain of ancestors, and of the longest one. -/
  deepest : ∃ c ∈ db.classes, (db.ancestors c.name).length = s.depth
  depth : ∀ c ∈ db.classes, (db.ancestors c.name).length ≤ s.depth
  shallow : s.depth ≤ s.classes ∧ s.classes = db.classes.length
  singletons : s.singletons = (db.classes.filter (·.singleton)).map (·.bindingName)
  apart : s.singletons.Nodup

/-- What a class declares is bound or hidden. -/
theorem boundNames_length (options : Options) (c : ClassDecl) :
    (c.boundNames options).length + hiddenIn options c =
      c.methods.length + c.properties.size + c.signals.length + c.constants.size := by
  have properties : c.properties.values.length = c.properties.size := by
    rw [NameMap.values_eq,List.length_map,Std.ExtTreeMap.length_toList]
  have methods : (c.methods.filter (Bind.isVisible options)).length + hiddenIn options c =
      c.methods.length := by
    unfold Bind.isVisible hiddenIn
    cases options.exposePrivateMethods with
    | true => simp
    | false =>
      rw [← List.countP_eq_length_filter,Nat.add_comm,
        List.length_eq_countP_add_countP (l := c.methods) (·.isPrivate)]
      simp
  simp only [ClassDecl.boundNames,List.length_append,List.length_map,Std.ExtTreeMap.length_keys]
  omega

/-- The tables of all types have the distinct names of all classes. -/
theorem own_sizes (made : Lattice.Synthesized db options l) :
    l.types.toList.map (·.own.size) =
      db.classes.map fun c => (c.boundNames options).dedup.length := by
  apply made.map_types
  intro i t found
  exact Bind.table_size (made.built.places i t found).table

/-- Chains of types are as long as those of their classes. -/
theorem chain_lengths (loaded : Database.Loaded given constants db)
    (made : Lattice.Synthesized db options l) :
    l.types.toList.map (·.chain.length) = db.classes.map fun c => (db.ancestors c.name).length := by
  apply made.map_types
  intro i t found
  obtain ⟨line,here⟩ := Lattice.exists_line made found
  have ancestors : db.ancestors t.decl.name = line.map (·.decl) :=
    here.ancestors_eq made loaded.indexes
  rw [here.chain,ancestors,List.length_map,List.length_map]

theorem hidden_le (db : Database) (options : Options) (l : Lattice) :
    (ofLattice db options l).hiddenMethods ≤ (ofLattice db options l).methods := by
  simp only [ofLattice,total_eq]
  refine (sum_map_le_iff fun c _ => ?_).1
  unfold hiddenIn
  split
  · exact Nat.zero_le _
  · exact List.countP_le_length

/-- All that the classes declare is bound or hidden. -/
theorem boundNames_sum (made : Lattice.Synthesized db options l) :
    (db.classes.map fun c => (c.boundNames options).length).sum +
      (ofLattice db options l).hiddenMethods = (ofLattice db options l).methods +
      (ofLattice db options l).properties + (ofLattice db options l).signals +
      (ofLattice db options l).constants := by
  have decls : l.types.toList.map (·.decl) = db.classes := made.built.decls
  simp only [ofLattice,total_eq,decls,← List.sum_map_add,boundNames_length]

/-- The depth is reached by some chain of ancestors, and by the longest one. -/
theorem depth_greatest (loaded : Database.Loaded given constants db)
    (made : Lattice.Synthesized db options l) :
    (∃ c ∈ db.classes, (db.ancestors c.name).length = (ofLattice db options l).depth) ∧
      ∀ c ∈ db.classes, (db.ancestors c.name).length ≤ (ofLattice db options l).depth := by
  have greatest : (0 :: db.classes.map fun c => (db.ancestors c.name).length).max? =
      some (ofLattice db options l).depth := by
    rw [← chain_lengths loaded made]
    exact List.max?_cons'
  obtain ⟨reached,longest⟩ := List.max?_eq_some_iff.mp greatest
  have bound (c) (member : c ∈ db.classes) :
      (db.ancestors c.name).length ≤ (ofLattice db options l).depth :=
    longest _ (List.mem_cons_of_mem _ (List.mem_map_of_mem member))
  refine ⟨?_,bound⟩
  rcases List.mem_cons.mp reached with none | some
  · have root : db.root ∈ db.classes := List.head_mem db.nonempty
    exact ⟨db.root,root,Nat.le_antisymm (bound _ root) (none ▸ Nat.zero_le _)⟩
  · exact List.mem_map.mp some

theorem accounts (loaded : Database.Loaded given constants db)
    (made : Lattice.Synthesized db options l) : Accounts db options l (ofLattice db options l) := by
  have decls : l.types.toList.map (·.decl) = db.classes := made.built.decls
  have hidden := hidden_le db options l
  have sum := boundNames_sum made
  obtain ⟨bound,tight⟩ := sum_map_le_iff (l := db.classes)
    (f := fun c => (c.boundNames options).dedup.length)
    (g := fun c => (c.boundNames options).length)
    fun c _ => (List.dedup_sublist (c.boundNames options)).length_le
  obtain ⟨deepest,depth⟩ := depth_greatest loaded made
  constructor
  case hidden => exact hidden
  case bound =>
    rw [own_sizes made]
    omega
  case tight =>
    have distinct (c : ClassDecl) : (c.boundNames options).dedup.length =
        (c.boundNames options).length ↔ (c.boundNames options).Nodup :=
      (List.dedup_sublist _).length_eq.trans List.dedup_eq_self
    simp only [distinct] at tight
    rw [own_sizes made,← tight]
    omega
  case deepest => exact deepest
  case depth => exact depth
  case shallow =>
    refine ⟨?_,rfl⟩
    obtain ⟨c,member,same⟩ := deepest
    rw [← same]
    exact (List.subperm_of_subset (loaded.ascent member).nodup
      (loaded.ancestors_within member)).length_le
  case singletons => simp only [ofLattice,decls]
  case apart =>
    simp only [ofLattice,decls]
    exact loaded.singletons_apart

/-- The summary of a loaded database accounts for the tables that are made of it. -/
theorem summary_accounts_for_tables (loaded : Database.ofClasses given constants = .ok db)
    (options : Options) : ∃ l, Lattice.ofDatabase db options = .ok l ∧
      Accounts db options l (ofLattice db options l) := by
  have facts := Database.loaded_of_ok loaded
  obtain ⟨l,run,made⟩ := Lattice.ofDatabase_ok facts options
  exact ⟨l,run,accounts facts made⟩

/-- The signal has the name of a method and is declared twice; the private method is hidden. -/
def crowded : List ClassDecl :=
  [{ name := "Object", methods := [{ name := "ready" },{ name := "_tick" }]
     signals := ["ready","ready"], constants := NameMap.ofPairs [("LIMIT",3)] },
   { name := "Clock", parent := some "Object", singleton := true, signals := ["ready"] }]

theorem crowded_tables_are_smaller : ∃ db l, Database.ofClasses crowded ∅ = .ok db ∧
    Lattice.ofDatabase db {} = .ok l ∧ Accounts db {} l (ofLattice db {} l) ∧
    (l.types.toList.map (·.own.size)).sum ≠ (ofLattice db {} l).methods -
      (ofLattice db {} l).hiddenMethods + (ofLattice db {} l).properties +
      (ofLattice db {} l).signals + (ofLattice db {} l).constants := by
  obtain ⟨db,loaded,classes⟩ : ∃ db, Database.ofClasses crowded ∅ = .ok db ∧
      db.classes = crowded := ⟨_,rfl,rfl⟩
  obtain ⟨l,run,accounts⟩ := summary_accounts_for_tables loaded {}
  refine ⟨db,l,loaded,run,accounts,?_⟩
  intro same
  have distinct := accounts.tight.mp same
  rw [classes] at distinct
  obtain ⟨first,_⟩ := List.forall_mem_cons.mp distinct
  exact absurd first (by decide +kernel)

end Summary
end ObjectBridge
