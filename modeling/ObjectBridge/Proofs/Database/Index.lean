import ObjectBridge.Database.Names
import ObjectBridge.Proofs.Database.Decision
import ObjectBridge.Proofs.NameMap

/-! Indexes of classes. An index stands for a list of classes if it finds each under its name,
which takes different names; the order of the list plays no part. -/
namespace ObjectBridge

/-- Each class is found under its own name, and nothing else is found. -/
structure Indexes (index : ClassIndex) (classes : List ClassDecl) : Prop where
  distinct : (classes.map (·.name)).Nodup
  get : ∀ (name : String) (c : ClassDecl), index[name]? = some c ↔ c ∈ classes ∧ c.name = name

namespace Indexes

variable {index : ClassIndex} {classes : List ClassDecl} {c d : ClassDecl}

theorem self (indexes : Indexes index classes) (member : c ∈ classes) :
    index[c.name]? = some c := (indexes.get c.name c).mpr ⟨member,rfl⟩

theorem member (indexes : Indexes index classes) {name : String}
    (found : index[name]? = some c) : c ∈ classes := ((indexes.get name c).mp found).1

/-- A name determines its class. -/
theorem eq_of_name (indexes : Indexes index classes) (mc : c ∈ classes) (md : d ∈ classes)
    (same : c.name = d.name) : c = d := by
  have found := indexes.self mc
  rw [same,indexes.self md] at found
  exact (Option.some.inj found).symm

theorem mem_iff (indexes : Indexes index classes) {name : String} :
    name ∈ index ↔ ∃ c ∈ classes, c.name = name := by
  rw [Std.ExtTreeMap.mem_iff_isSome_getElem?,Option.isSome_iff_exists]
  exact exists_congr fun c => indexes.get name c

theorem perm {more : List ClassDecl} (indexes : Indexes index classes)
    (same : classes.Perm more) : Indexes index more := by
  refine ⟨((same.map _).nodup_iff).mp indexes.distinct,?_⟩
  intro name c
  rw [indexes.get,same.mem_iff]

/-- The classes determine the index. -/
theorem unique {other : ClassIndex} (indexes : Indexes index classes)
    (also : Indexes other classes) : index = other := by
  apply Std.ExtTreeMap.ext_getElem?
  intro name
  apply Option.ext
  intro c
  rw [indexes.get,also.get]

theorem empty : Indexes ∅ [] := ⟨List.nodup_nil,by simp⟩

theorem insert (indexes : Indexes index classes) (new : c.name ∉ index) :
    Indexes (index.insert c.name c) (classes ++ [c]) := by
  have other (d : ClassDecl) (member : d ∈ classes) : d.name ≠ c.name :=
    fun same => new (indexes.mem_iff.mpr ⟨d,member,same⟩)
  constructor
  · rw [List.map_append,List.nodup_append]
    refine ⟨indexes.distinct,List.nodup_singleton _,?_⟩
    intro name old name' new same
    obtain ⟨d,md,rfl⟩ := List.mem_map.mp old
    obtain rfl := List.mem_singleton.mp new
    exact other d md same
  · intro name d
    rw [Std.ExtTreeMap.getElem?_insert,List.mem_append,List.mem_singleton]
    by_cases same : c.name = name
    · subst same
      simp only [Std.compare_eq_iff_eq,if_true,Option.some.injEq]
      constructor
      · rintro rfl
        exact ⟨.inr rfl,rfl⟩
      · rintro ⟨old | new,named⟩
        · exact absurd named (other d old)
        · exact new.symm
    · simp only [Std.compare_eq_iff_eq,same,if_false,indexes.get]
      constructor
      · rintro ⟨old,named⟩
        exact ⟨.inl old,named⟩
      · rintro ⟨old | rfl,named⟩
        · exact ⟨old,named⟩
        · exact absurd named same

theorem nodup (indexes : Indexes index classes) : classes.Nodup :=
  List.Nodup.of_map _ indexes.distinct

variable {part : List ClassDecl}

/-- Among indexed classes the test for a name tells whether its class is there. -/
theorem any_name_eq (indexes : Indexes index classes) (within : ∀ d ∈ part, d ∈ classes)
    (member : c ∈ classes) : part.any (·.name == c.name) = decide (c ∈ part) := by
  rw [Bool.eq_iff_iff,List.any_eq_true,decide_eq_true_eq]
  constructor
  · rintro ⟨d,md,same⟩
    exact indexes.eq_of_name (within d md) member (eq_of_beq same) ▸ md
  · exact fun mc => ⟨c,mc,beq_self_eq_true _⟩

theorem names_nodup (indexes : Indexes index classes) (within : ∀ c ∈ part, c ∈ classes)
    (nodup : part.Nodup) : (part.map (·.name)).Nodup :=
  nodup.map_on fun _ mc _ md same => indexes.eq_of_name (within _ mc) (within _ md) same

/-- Classes of different names among the indexed ones are not more than these. -/
theorem length_le (indexes : Indexes index classes) (within : ∀ c ∈ part, c ∈ classes)
    (distinct : (part.map (·.name)).Nodup) : part.length ≤ index.size := by
  rw [← List.length_map (f := (·.name))]
  apply NameMap.length_le_size distinct
  intro name member
  obtain ⟨c,mc,rfl⟩ := List.mem_map.mp member
  exact indexes.mem_iff.mpr ⟨c,within c mc,rfl⟩

/-- Inserting classes of different names one after another makes their index. -/
theorem foldl {done : List ClassDecl} (indexes : Indexes index done) (rest : List ClassDecl)
    (distinct : ((done ++ rest).map (·.name)).Nodup) :
    Indexes (rest.foldl (fun index c => index.insert c.name c) index) (done ++ rest) := by
  induction rest generalizing index done with
  | nil => simpa using indexes
  | cons c rest ih =>
    rw [List.append_cons] at distinct ⊢
    apply ih (indexes.insert ?_) distinct
    intro taken
    obtain ⟨d,md,same⟩ := indexes.mem_iff.mp taken
    rw [List.map_append,List.map_append,List.map_singleton] at distinct
    have apart := (List.nodup_append.mp (List.nodup_append.mp distinct).1).2.2
    exact apart d.name (List.mem_map_of_mem md) c.name List.mem_cons_self same

theorem ofClasses (distinct : (classes.map (·.name)).Nodup) :
    Indexes (ClassIndex.ofClasses classes) classes :=
  empty.foldl classes distinct

end Indexes

namespace Names

variable {index full : ClassIndex} {done rest classes : List ClassDecl}

theorem indexFrom_indexes (indexes : Indexes index done)
    (run : indexFrom index rest = .ok full) : Indexes full (done ++ rest) := by
  induction rest generalizing index done with
  | nil =>
    obtain rfl : index = full := Except.ok.inj run
    simpa using indexes
  | cons c rest ih =>
    unfold indexFrom at run
    split at run
    · cases run
    · rename_i new
      rw [List.append_cons]
      exact ih (indexes.insert new) run

theorem indexFrom_error {e : LoadError} (indexes : Indexes index done)
    (run : indexFrom index rest = .error e) :
    ¬((done ++ rest).map (·.name)).Nodup ∧ e.check = .classNames := by
  induction rest generalizing index done with
  | nil => cases run
  | cons c rest ih =>
    unfold indexFrom at run
    split at run
    · rename_i taken
      obtain rfl := Except.error.inj run
      obtain ⟨d,md,same⟩ := indexes.mem_iff.mp taken
      refine ⟨?_,rfl⟩
      intro distinct
      rw [List.map_append] at distinct
      exact (List.nodup_append.mp distinct).2.2 d.name (List.mem_map_of_mem md) c.name
        (List.mem_map_of_mem List.mem_cons_self) same
    · rename_i new
      rw [List.append_cons]
      exact ih (indexes.insert new) run

/-- The first pass decides whether all names differ. -/
theorem indexFrom_decides (classes : List ClassDecl) :
    Decides .classNames (indexFrom ∅ classes) (classes.map (·.name)).Nodup :=
  ⟨fun _ run => (indexFrom_indexes Indexes.empty run).distinct,
    fun _ run => indexFrom_error Indexes.empty run⟩

end Names
end ObjectBridge
