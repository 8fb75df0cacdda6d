import ObjectBridge.Proofs.Database.Acceptance

/-! The ancestors of a class in a loaded database. They are the ascent along declared parents, which
ends in the one root, and being among the ancestors orders the classes as a tree. -/
namespace ObjectBridge.Database

/-- A complete walk along declared parents from a class up to the root. -/
structure Climbs (db : Database) (c : ClassDecl) (line : List ClassDecl) : Prop where
  starts : line.head? = some c
  steps : line.IsChain (fun a b => a.parent = some b.name)
  apart : (line.map (·.name)).Nodup
  ends : line.getLast? = some db.root

/-- A partial order with a greatest element in which all that is above an element is ordered. -/
structure TreeOrder (classes : List ClassDecl) (below : ClassDecl → ClassDecl → Prop)
    (top : ClassDecl) : Prop where
  refl : ∀ a ∈ classes, below a a
  trans : ∀ a ∈ classes, ∀ b ∈ classes, ∀ c, below a b → below b c → below a c
  antisymm : ∀ a ∈ classes, ∀ b ∈ classes, below a b → below b a → a = b
  greatest : top ∈ classes ∧ ∀ a ∈ classes, below a top
  total : ∀ a ∈ classes, ∀ b c, below a b → below a c → below b c ∨ below c b

namespace Loaded

variable {given : List ClassDecl} {constants : NameMap Int64} {db : Database} {a b c : ClassDecl}

theorem mem_iff (loaded : Loaded given constants db) : c ∈ db.classes ↔ c ∈ given :=
  loaded.perm.mem_iff

theorem given_indexes (loaded : Loaded given constants db) : Indexes db.index given :=
  loaded.indexes.perm loaded.perm

theorem ancestors_eq (loaded : Loaded given constants db) (member : c ∈ db.classes) :
    db.ancestors c.name = db.index.lineage c := by
  have known : db.get? c.name = some c := loaded.indexes.self member
  rw [ancestors,known]

theorem ascent (loaded : Loaded given constants db) (member : c ∈ db.classes) :
    Ascent db.index.parent? c (db.ancestors c.name) := by
  rw [loaded.ancestors_eq member]
  exact loaded.given_indexes.lineage_ascent loaded.acceptable.acyclic (loaded.mem_iff.mp member)

theorem ancestors_within (loaded : Loaded given constants db) (member : c ∈ db.classes) :
    ∀ d ∈ db.ancestors c.name, d ∈ db.classes :=
  loaded.indexes.ascent_within (loaded.ascent member) member

theorem mem_ancestors_iff (loaded : Loaded given constants db) (member : c ∈ db.classes) :
    a ∈ db.ancestors c.name ↔ Relation.ReflTransGen (Parent given) c a := by
  rw [loaded.ancestors_eq member]
  exact loaded.given_indexes.mem_lineage loaded.acceptable.acyclic (loaded.mem_iff.mp member)

/-- The class that comes first is the only one without a parent. -/
theorem root_iff (loaded : Loaded given constants db) (member : c ∈ db.classes) :
    c.parent = none ↔ c = db.root := by
  have first : db.root.parent = none := by
    cases parent : db.root.parent with
    | none => rfl
    | some name =>
      have shape : db.classes = [] ++ db.root :: db.classes.tail :=
        (List.cons_head_tail db.nonempty).symm
      obtain ⟨p,mp,_⟩ := loaded.parentsFirst [] db.root db.classes.tail shape name parent
      cases mp
  constructor
  · intro none
    have listed : db.root ∈ db.classes := List.head_mem db.nonempty
    exact loaded.acceptable.root.unique ⟨loaded.mem_iff.mp member,none⟩
      ⟨loaded.mem_iff.mp listed,first⟩
  · rintro rfl
    exact first

/-- The index leads from a class exactly to the class that it declares as its parent. -/
theorem map_parent? (loaded : Loaded given constants db) (member : c ∈ db.classes) :
    (db.index.parent? c).map (·.name) = c.parent := by
  cases parent : c.parent with
  | none => simp [ClassIndex.parent?,parent]
  | some name =>
    obtain ⟨p,mp,rfl⟩ := loaded.acceptable.parents c (loaded.mem_iff.mp member) name parent
    rw [loaded.indexes.parent?_eq_some.mpr ⟨loaded.mem_iff.mpr mp,parent⟩,Option.map_some]

theorem climbs (loaded : Loaded given constants db) (member : c ∈ db.classes) :
    Climbs db c (db.ancestors c.name) := by
  have ascent := loaded.ascent member
  have within := loaded.ancestors_within member
  obtain ⟨rest,shape⟩ := ascent.head
  refine ⟨by rw [shape]; rfl,?_,?_,?_⟩
  · exact ascent.isChain.imp fun _ _ step => (loaded.indexes.parent?_eq_some.mp step).2
  · exact loaded.indexes.names_nodup within ascent.nodup
  · obtain ⟨top,last,stop⟩ := ascent.getLast
    have listed := within top (List.mem_of_getLast? last)
    have parent := loaded.map_parent? listed
    rw [stop,Option.map_none] at parent
    rw [last,(loaded.root_iff listed).mp parent.symm]

section

variable {answers : ClassDecl → Option α} {wanted : ClassDecl → Option β}
  {R : ClassDecl → β → α → Prop}

/-- If a walk along the ancestors asks each class for something and each answers what is wanted of
it, the walk ends at the nearest class of which anything is wanted. -/
theorem nearest_of_walk (loaded : Loaded given constants db) (member : c ∈ db.classes)
    (rel : ∀ d ∈ db.classes, Option.Rel (R d) (wanted d) (answers d)) {found : α}
    (walk : (db.ancestors c.name).findSome? answers = some found) :
    ∃ owner b, Nearest db.classes wanted c owner b ∧ R owner b found := by
  obtain ⟨owner,nearest⟩ := (loaded.indexes.findSome?_iff (loaded.ascent member) member).mp walk
  exact ⟨owner,nearest.related rel member⟩

/-- A walk without an end has passed all classes, and nothing is wanted of any. -/
theorem none_of_walk (loaded : Loaded given constants db) (member : c ∈ db.classes)
    (rel : ∀ d ∈ db.classes, Option.Rel (R d) (wanted d) (answers d))
    (walk : (db.ancestors c.name).findSome? answers = none)
    (above : Relation.ReflTransGen (Parent db.classes) c a) : wanted a = none := by
  have listed : a ∈ db.ancestors c.name :=
    (loaded.ascent member).mem_iff.mpr ((loaded.indexes.reaches_iff member).mpr above)
  have related := rel a (loaded.ancestors_within member a listed)
  rw [List.findSome?_eq_none_iff.mp walk a listed] at related
  cases asked : wanted a with
  | none => rfl
  | some b => rw [asked] at related; cases related

end

theorem treeOrder (loaded : Loaded given constants db) :
    TreeOrder db.classes (fun a b => b ∈ db.ancestors a.name) db.root := by
  constructor
  case refl => exact fun a member => (loaded.ascent member).self_mem
  case trans =>
    intro a ma b mb c first second
    rw [(loaded.ascent ma).mem_iff] at first ⊢
    rw [(loaded.ascent mb).mem_iff] at second
    exact first.trans second
  case antisymm =>
    intro a ma b mb up down
    rw [(loaded.ascent ma).mem_iff] at up
    rw [(loaded.ascent mb).mem_iff] at down
    rcases Relation.reflTransGen_iff_eq_or_transGen.mp up with same | above
    · exact same.symm
    · exact absurd (above.trans_left down) (loaded.ascent ma).acyclic
  case greatest =>
    refine ⟨List.head_mem db.nonempty,?_⟩
    intro a member
    exact List.mem_of_getLast? (loaded.climbs member).ends
  case total =>
    intro a member b c first second
    have mb := loaded.ancestors_within member b first
    have mc := loaded.ancestors_within member c second
    rw [(loaded.ascent member).mem_iff] at first second
    rw [(loaded.ascent mb).mem_iff,(loaded.ascent mc).mem_iff]
    refine Relation.ReflTransGen.total_of_right_unique ?_ first second
    exact fun _ _ _ left right => Option.some.inj (left.symm.trans right)

end Loaded
end ObjectBridge.Database
