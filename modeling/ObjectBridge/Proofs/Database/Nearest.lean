import Mathlib.Data.List.TakeWhile
import ObjectBridge.Proofs.Database.Cycles

/-! Looking things up along the chain of a class: the nearest class that has something, the
classes above a class, and which tags are welcome where others are declared. -/
namespace ObjectBridge

/-- Of the class and those above it, `owner` is the first that has something, and has `b`. -/
inductive Nearest (classes : List ClassDecl) (has : ClassDecl → Option β) :
    ClassDecl → ClassDecl → β → Prop where
  | here : has c = some b → Nearest classes has c c b
  | above : has c = none → Parent classes c p → Nearest classes has p owner b →
      Nearest classes has c owner b

theorem Nearest.found {classes : List ClassDecl} {has : ClassDecl → Option β} {c owner : ClassDecl}
    {b : β} (nearest : Nearest classes has c owner b) (member : c ∈ classes) :
    owner ∈ classes ∧ has owner = some b := by
  induction nearest with
  | here found => exact ⟨member,found⟩
  | above _ parent _ ih => exact ih parent.2.1

/-- Two searches with related answers on each class stop at the same class. -/
theorem Nearest.related {classes : List ClassDecl} {has : ClassDecl → Option β}
    {wanted : ClassDecl → Option γ} {R : ClassDecl → γ → β → Prop} {c owner : ClassDecl} {b : β}
    (rel : ∀ d ∈ classes, Option.Rel (R d) (wanted d) (has d)) (member : c ∈ classes)
    (nearest : Nearest classes has c owner b) :
    ∃ a, Nearest classes wanted c owner a ∧ R owner a b := by
  induction nearest with
  | @here c b found =>
    have same := rel c member
    cases asked : wanted c with
    | none => rw [asked,found] at same; cases same
    | some a =>
      rw [asked,found] at same
      cases same with
      | some related => exact ⟨a,.here asked,related⟩
  | @above c p owner b missing parent _ ih =>
    have same := rel c member
    obtain ⟨a,nearest,related⟩ := ih parent.2.1
    cases asked : wanted c with
    | none => exact ⟨a,.above asked parent nearest,related⟩
    | some _ => rw [asked,missing] at same; cases same

/-- A value declared as the first tag is welcome where the second is declared. -/
inductive Assignable (classes : List ClassDecl) : Tag → Tag → Prop where
  | same : Assignable classes tag tag
  | variant : Assignable classes tag .variant
  | widen : Assignable classes .int .float
  | object : Assignable classes (.object cls) (.object none)
  | above : Relation.ReflTransGen (Parent classes) sub sup →
      Assignable classes (.object (some sub.name)) (.object (some sup.name))

namespace Indexes

variable {index : ClassIndex} {classes l : List ClassDecl} {c : ClassDecl}

theorem ascent_within (indexes : Indexes index classes) (ascent : Ascent index.parent? c l)
    (member : c ∈ classes) : ∀ d ∈ l, d ∈ classes := by
  induction ascent with
  | top _ => simpa using member
  | up step _ ih =>
    have above := ih (indexes.parent?_eq_some.mp step).1
    intro d md
    rcases List.mem_cons.mp md with rfl | md
    · exact member
    · exact above d md

theorem ascent_length_le (indexes : Indexes index classes)
    (ascent : Ascent index.parent? c l) (member : c ∈ classes) : l.length ≤ index.size :=
  have within := indexes.ascent_within ascent member
  indexes.length_le within (indexes.names_nodup within ascent.nodup)

/-- The fuel of a lineage is enough for every ascent. -/
theorem lineage_eq (indexes : Indexes index classes) (ascent : Ascent index.parent? c l)
    (member : c ∈ classes) : index.lineage c = l := by
  rw [ClassIndex.lineage,ascent.climb_eq _ (indexes.ascent_length_le ascent member)]
  exact List.takeWhile_eq_self_iff.mpr (fun _ _ => rfl)

variable {has : ClassDecl → Option β} {b : β}

/-- A search along an ascent finds what the nearest class has. -/
theorem findSome?_iff (indexes : Indexes index classes) (ascent : Ascent index.parent? c l)
    (member : c ∈ classes) :
    l.findSome? has = some b ↔ ∃ owner, Nearest classes has c owner b := by
  induction ascent with
  | @top x stop =>
    constructor
    · intro found
      exact ⟨x,.here (by simpa using found)⟩
    · rintro ⟨owner,nearest⟩
      cases nearest with
      | here own => simpa using own
      | above _ parent _ =>
        rw [(indexes.parent_iff member).mpr parent] at stop
        cases stop
  | @up x y l step _ ih =>
    have parent := (indexes.parent_iff member).mp step
    rw [List.findSome?_cons]
    cases own : has x with
    | some a =>
      constructor
      · intro found
        obtain rfl : a = b := Option.some.inj found
        exact ⟨x,.here own⟩
      · rintro ⟨owner,nearest⟩
        cases nearest with
        | here found => exact own.symm.trans found
        | above missing _ _ => rw [own] at missing; cases missing
    | none =>
      refine (ih parent.2.1).trans ?_
      constructor
      · rintro ⟨owner,nearest⟩
        exact ⟨owner,.above own parent nearest⟩
      · rintro ⟨owner,nearest⟩
        cases nearest with
        | here found => rw [own] at found; cases found
        | above _ other nearest =>
          have found := (indexes.parent_iff member).mpr other
          obtain rfl := Option.some.inj (step.symm.trans found)
          exact ⟨owner,nearest⟩

variable (indexes : Indexes index classes) (acyclic : Acyclic classes)
include indexes acyclic

theorem lineage_ascent (member : c ∈ classes) :
    Ascent index.parent? c (index.lineage c) := by
  obtain ⟨l,ascent⟩ := Hierarchy.ascent_of_acyclic indexes acyclic member
  rwa [indexes.lineage_eq ascent member]

/-- A lineage has the class and all that are above it. -/
theorem mem_lineage (member : c ∈ classes) {d : ClassDecl} :
    d ∈ index.lineage c ↔ Relation.ReflTransGen (Parent classes) c d := by
  rw [(indexes.lineage_ascent acyclic member).mem_iff,indexes.reaches_iff member]

theorem findMethod?_iff (member : c ∈ classes) {name : String} {m : MethodDecl} :
    index.findMethod? c name = some m ↔
      ∃ owner, Nearest classes (·.method? name) c owner m :=
  indexes.findSome?_iff (indexes.lineage_ascent acyclic member) member

theorem isBelow_iff {sub sup : String} :
    index.isBelow sub sup = true ↔ ∃ c d, c ∈ classes ∧ c.name = sub ∧ d.name = sup ∧
      Relation.ReflTransGen (Parent classes) c d := by
  unfold ClassIndex.isBelow
  cases found : index[sub]? with
  | none =>
    constructor
    · intro absurd
      cases absurd
    · rintro ⟨c,d,member,named,_⟩
      rw [(indexes.get sub c).mpr ⟨member,named⟩] at found
      cases found
  | some c =>
    obtain ⟨member,named⟩ := (indexes.get sub c).mp found
    rw [List.any_eq_true]
    constructor
    · rintro ⟨d,above,same⟩
      exact ⟨c,d,member,named,eq_of_beq same,(indexes.mem_lineage acyclic member).mp above⟩
    · rintro ⟨e,d,memberE,namedE,namedD,reach⟩
      obtain rfl := indexes.eq_of_name member memberE (named.trans namedE.symm)
      exact ⟨d,(indexes.mem_lineage acyclic member).mpr reach,beq_iff_eq.mpr namedD⟩

theorem assignable_iff {value target : Tag} :
    index.assignable value target = true ↔ Assignable classes value target := by
  by_cases same : value = target
  · subst same
    simp [ClassIndex.assignable,Assignable.same]
  constructor
  · intro holds
    unfold ClassIndex.assignable at holds
    rw [if_neg same] at holds
    split at holds
    · exact .variant
    · exact .widen
    · exact .object
    · obtain ⟨c,d,_,rfl,rfl,reach⟩ := (indexes.isBelow_iff acyclic).mp holds
      exact .above reach
    · cases holds
  · intro holds
    cases holds with
    | same => exact absurd rfl same
    | variant => simp [ClassIndex.assignable]
    | widen => rfl
    | object => simp [ClassIndex.assignable]
    | @above sub sup reach =>
      have differ : sub ≠ sup := fun eq => same (by rw [eq])
      have member : sub ∈ classes := by
        rcases Relation.ReflTransGen.cases_head_iff.mp reach with eq | ⟨d,parent,_⟩
        · exact absurd eq differ
        · exact parent.1
      have below := (indexes.isBelow_iff acyclic).mpr ⟨sub,sup,member,rfl,rfl,reach⟩
      simp [ClassIndex.assignable,below]

theorem assignable_object_iff {d : ClassDecl} (mc : c ∈ classes) (md : d ∈ classes) :
    index.assignable (.object (some c.name)) (.object (some d.name)) = true ↔
      Relation.ReflTransGen (Parent classes) c d := by
  by_cases same : c = d
  · subst same
    simp [ClassIndex.assignable,Relation.ReflTransGen.refl]
  have apart : c.name ≠ d.name := fun eq => same (indexes.eq_of_name mc md eq)
  have below : index.assignable (.object (some c.name)) (.object (some d.name)) =
      index.isBelow c.name d.name := by
    simp [ClassIndex.assignable,apart]
  rw [below,indexes.isBelow_iff acyclic]
  constructor
  · rintro ⟨a,b,ma,namedA,namedB,reach⟩
    obtain rfl := indexes.eq_of_name ma mc namedA
    have mb := indexes.ascent_within (indexes.lineage_ascent acyclic ma) ma b
      ((indexes.mem_lineage acyclic ma).mpr reach)
    obtain rfl := indexes.eq_of_name mb md namedB
    exact reach
  · intro reach
    exact ⟨c,d,mc,rfl,rfl,reach⟩

end Indexes
end ObjectBridge
