import Mathlib.Data.Prod.Lex
import ObjectBridge.Proofs.Database.Ancestors
import ObjectBridge.Proofs.Database.Permutation

/-! The stored order of classes in closed form. A class is placed along with the first class that
is declared in its family, which is the class itself and all below it, and of those placed at once
the one with fewer classes above it goes first. -/
namespace ObjectBridge

/-- Where a test that failed once fails from then on, the front that passes is all that passes. -/
theorem takeWhile_eq_filter {l : List α} {p : α → Bool}
    (falls : l.Pairwise fun a b => p b = true → p a = true) : l.takeWhile p = l.filter p := by
  induction falls with
  | nil => rfl
  | @cons a l first _ ih =>
    by_cases holds : p a = true
    · simp [holds,ih]
    · have none : ∀ b ∈ l, ¬p b = true := fun b member later => holds (first b member later)
      rw [List.takeWhile_cons_of_neg holds,List.filter_cons_of_neg holds]
      exact (List.filter_eq_nil_iff.mpr none).symm

/-- In a sorted list places compare like ranks. -/
theorem idxOf_lt_iff [DecidableEq α] [Preorder β] {rank : α → β} {l : List α} {a b : α}
    (sorted : l.Pairwise fun a b => rank a < rank b) (ma : a ∈ l) (mb : b ∈ l) :
    l.idxOf a < l.idxOf b ↔ rank a < rank b := by
  have ordered {x y : α} (mx : x ∈ l) (my : y ∈ l) (before : l.idxOf x < l.idxOf y) :
      rank x < rank y := by
    simpa using List.pairwise_iff_getElem.mp sorted _ _ (List.idxOf_lt_length_of_mem mx)
      (List.idxOf_lt_length_of_mem my) before
  constructor
  · exact ordered ma mb
  · intro lower
    by_contra later
    rcases Nat.lt_or_eq_of_le (Nat.le_of_not_lt later) with before | same
    · exact lt_asymm lower (ordered mb ma before)
    · obtain rfl := (List.idxOf_inj mb).mp same
      exact lt_irrefl _ lower

namespace ClassIndex

/-- The place in a list of the first class that is the class or below it. -/
def firstPlace (index : ClassIndex) (classes : List ClassDecl) (c : ClassDecl) : Nat :=
  classes.findIdx fun d => decide (c ∈ index.lineage d)

/-- The number of classes above a class. -/
def depth (index : ClassIndex) (c : ClassDecl) : Nat := (index.lineage c).tail.length

/-- The first place goes before the depth. -/
def rank (index : ClassIndex) (classes : List ClassDecl) (c : ClassDecl) : Nat ×ₗ Nat :=
  toLex (index.firstPlace classes c,index.depth c)

end ClassIndex

namespace Hierarchy

variable {index : ClassIndex} {classes done placed rest : List ClassDecl} {a b c d : ClassDecl}

theorem rank_lt_iff : index.rank classes a < index.rank classes b ↔
    index.firstPlace classes a < index.firstPlace classes b ∨
      index.firstPlace classes a = index.firstPlace classes b ∧ index.depth a < index.depth b :=
  Prod.Lex.toLex_lt_toLex

/-- The families of the classes done so far are placed, those of the highest rank in front. -/
structure Arranged (index : ClassIndex) (classes done placed : List ClassDecl) : Prop where
  families : ∀ a, a ∈ placed ↔ ∃ d ∈ done, a ∈ index.lineage d
  sorted : placed.Pairwise fun a b => index.rank classes b < index.rank classes a

theorem firstPlace_lt (index : ClassIndex) (a : ClassDecl) (shape : classes = done ++ rest) :
    index.firstPlace classes a < done.length ↔ ∃ d ∈ done, a ∈ index.lineage d := by
  have within : done.findIdx (fun d => decide (a ∈ index.lineage d)) < done.length ↔
      ∃ d ∈ done, a ∈ index.lineage d := by
    simp [List.findIdx_lt_length]
  rw [← within,ClassIndex.firstPlace,shape,List.findIdx_append]
  split
  · rfl
  · omega

/-- A class is placed along with the first one of its family. -/
theorem firstPlace_eq (shape : classes = done ++ c :: rest) (above : a ∈ index.lineage c)
    (new : ¬∃ d ∈ done, a ∈ index.lineage d) : index.firstPlace classes a = done.length := by
  have low := mt (firstPlace_lt index a shape).mp new
  rw [List.append_cons] at shape
  have high := (firstPlace_lt index a shape).mpr ⟨c,by simp,above⟩
  rw [List.length_append,List.length_singleton] at high
  omega

variable (indexes : Indexes index classes) (acyclic : Acyclic classes)
include indexes acyclic

/-- Going up, fewer and fewer classes are above. -/
theorem lineage_pairwise_depth (member : c ∈ classes) :
    (index.lineage c).Pairwise fun a b => index.depth b < index.depth a := by
  have ascent := indexes.lineage_ascent acyclic member
  have within := indexes.ascent_within ascent member
  refine ascent.pairwise_above.imp_of_mem ?_
  intro a b ma mb above
  have low := indexes.lineage_ascent acyclic (within a ma)
  have high := indexes.lineage_ascent acyclic (within b mb)
  have fewer := low.length_lt high above
  obtain ⟨rest,shape⟩ := high.head
  have nonempty : 0 < (index.lineage b).length := by simp [shape]
  simp only [ClassIndex.depth,List.length_tail]
  omega

/-- Classes with one parent have the same classes above them. -/
theorem depth_eq_of_parent (ma : a ∈ classes) (mb : b ∈ classes) (same : a.parent = b.parent) :
    index.depth a = index.depth b := by
  have left := indexes.lineage_ascent acyclic ma
  have right := indexes.lineage_ascent acyclic mb
  have parent : index.parent? a = index.parent? b := by simp [ClassIndex.parent?,same]
  unfold ClassIndex.depth
  generalize index.lineage a = k at left ⊢
  generalize index.lineage b = m at right ⊢
  cases left with
  | top stop =>
    cases right with
    | top _ => rfl
    | up step _ => simp [← parent,stop] at step
  | up step later =>
    cases right with
    | top stop => simp [← parent,step] at stop
    | up other more =>
      obtain rfl := Option.some.inj (step.symm.trans (parent.trans other))
      rw [List.tail_cons,List.tail_cons,later.unique more]

/-- A class is in its own family. -/
theorem firstPlace_le (member : a ∈ classes) :
    index.firstPlace classes a ≤ classes.idxOf a := by
  by_contra later
  have before := List.not_of_lt_findIdx (Nat.lt_of_not_le later)
  simp [(indexes.lineage_ascent acyclic member).self_mem] at before

theorem lineage_trans (member : c ∈ classes) (first : b ∈ index.lineage c)
    (second : a ∈ index.lineage b) : a ∈ index.lineage c := by
  have mb := indexes.ascent_within (indexes.lineage_ascent acyclic member) member b first
  rw [indexes.mem_lineage acyclic member] at first ⊢
  rw [indexes.mem_lineage acyclic mb] at second
  exact first.trans second

/-- With whole families placed, what a class adds is all that is missing above it. -/
theorem place_eq (arranged : Arranged index classes done placed)
    (among : ∀ d ∈ done, d ∈ classes) (member : c ∈ classes) :
    place index placed c =
      (index.lineage c).filter (fun a => decide (a ∉ placed)) ++ placed := by
  have ascent := indexes.lineage_ascent acyclic member
  have within := indexes.ascent_within ascent member
  have known : ∀ b ∈ placed, b ∈ classes := by
    intro b mb
    obtain ⟨d,md,above⟩ := (arranged.families b).mp mb
    exact indexes.ascent_within (indexes.lineage_ascent acyclic (among d md)) (among d md) b above
  rw [place,ascent.climb_eq _ (indexes.ascent_length_le ascent member),takeWhile_eq_filter]
  · congr 1
    apply List.filter_congr
    intro a ma
    simp [indexes.any_name_eq known (within a ma)]
  · refine ascent.pairwise_above.imp_of_mem ?_
    intro a b ma mb above new
    simp only [indexes.any_name_eq known (within b mb),indexes.any_name_eq known (within a ma),
      Bool.not_eq_true',decide_eq_false_iff_not,arranged.families] at new ⊢
    rintro ⟨d,md,placed⟩
    refine new ⟨d,md,lineage_trans indexes acyclic (among d md) placed ?_⟩
    exact (indexes.lineage_ascent acyclic (within a ma)).mem_iff.mpr above.to_reflTransGen

/-- What is placed with a class has its place for the first one, and it comes highest first. -/
theorem Arranged.next (arranged : Arranged index classes done placed)
    (shape : classes = done ++ c :: rest) :
    Arranged index classes (done ++ [c]) (place index placed c) := by
  have among : ∀ d ∈ done, d ∈ classes := by simp_all
  have member : c ∈ classes := by simp [shape]
  have first {a : ClassDecl} (ma : a ∈ (index.lineage c).filter (fun a => decide (a ∉ placed))) :
      index.firstPlace classes a = done.length := by
    simp only [List.mem_filter,decide_eq_true_eq,arranged.families] at ma
    exact firstPlace_eq shape ma.1 ma.2
  rw [place_eq indexes acyclic arranged among member]
  constructor
  · intro a
    by_cases old : a ∈ placed <;> simp [old,← arranged.families]
  · rw [List.pairwise_append]
    refine ⟨?_,arranged.sorted,?_⟩
    · refine ((lineage_pairwise_depth indexes acyclic member).filter _).imp_of_mem ?_
      intro a b ma mb deeper
      exact rank_lt_iff.mpr (.inr ⟨(first mb).trans (first ma).symm,deeper⟩)
    · intro a ma b mb
      have before := (firstPlace_lt index b shape).mpr ((arranged.families b).mp mb)
      exact rank_lt_iff.mpr (.inl (first ma ▸ before))

theorem Arranged.foldl (arranged : Arranged index classes done placed)
    (shape : classes = done ++ rest) :
    Arranged index classes classes (rest.foldl (place index) placed) := by
  induction rest generalizing done placed with
  | nil =>
    rw [List.append_nil] at shape
    exact shape ▸ arranged
  | cons c rest ih =>
    exact ih (arranged.next indexes acyclic shape) (by simp [shape])

/-- The stored order is the order of ranks. -/
theorem order_sorted : (order index classes).Pairwise
    fun a b => index.rank classes a < index.rank classes b := by
  have start : Arranged index classes [] [] := ⟨by simp,.nil⟩
  have arranged := start.foldl indexes acyclic (List.nil_append classes).symm
  exact List.pairwise_reverse.mpr arranged.sorted

/-- A class whose parent is placed is placed alone. -/
theorem place_eq_cons (known : ∀ b ∈ placed, b ∈ classes) (member : c ∈ classes)
    (new : c ∉ placed) (above : ∀ p, index.parent? c = some p → p ∈ placed) :
    place index placed c = c :: placed := by
  have ascent := indexes.lineage_ascent acyclic member
  rw [place,ascent.climb_eq _ (indexes.ascent_length_le ascent member)]
  have fresh := indexes.any_name_eq known member
  generalize index.lineage c = l at ascent
  cases ascent with
  | top _ => simp [fresh,new]
  | up step later =>
    obtain ⟨rest,rfl⟩ := later.head
    have mp := above _ step
    have met := indexes.any_name_eq known (known _ mp)
    simp [fresh,new,met,mp]

theorem foldl_place_eq (first : ParentsFirst classes) (shape : classes = done ++ rest) :
    rest.foldl (place index) done.reverse = classes.reverse := by
  induction rest generalizing done with
  | nil => simp [shape]
  | cons c rest ih =>
    have alone : place index done.reverse c = (done ++ [c]).reverse := by
      rw [List.reverse_append]
      apply place_eq_cons indexes acyclic
      · simp_all
      · simp [shape]
      · intro again
        have nodup := List.nodup_append.mp (shape ▸ indexes.nodup)
        exact nodup.2.2 c (List.mem_reverse.mp again) c List.mem_cons_self rfl
      · intro p step
        obtain ⟨mp,parent⟩ := indexes.parent?_eq_some.mp step
        obtain ⟨q,mq,same⟩ := first done c rest shape p.name parent
        have member : q ∈ classes := by simp [shape,mq]
        exact List.mem_reverse.mpr (indexes.eq_of_name member mp same ▸ mq)
    rw [List.foldl_cons,alone]
    exact ih (by simp [shape])

/-- A list that has parents first is not changed. -/
theorem order_eq_self (first : ParentsFirst classes) : order index classes = classes := by
  have kept : classes.foldl (place index) [] = classes.reverse :=
    foldl_place_eq indexes acyclic first (List.nil_append classes).symm
  rw [order,kept,List.reverse_reverse]

end Hierarchy

namespace Database

variable {given : List ClassDecl} {constants : NameMap Int64} {db : Database} {a b : ClassDecl}

theorem classes_of_ok (run : ofClasses given constants = .ok db) :
    db.classes = Hierarchy.order db.index given := by
  have loaded := loaded_of_ok run
  have ordered : Hierarchy.order db.index given ≠ [] := by
    intro none
    have perm := Hierarchy.order_perm loaded.given_indexes loaded.acceptable.parents
      loaded.acceptable.acyclic
    exact loaded.acceptable.nonempty (by simpa [none] using perm)
  simp [ofClasses,loaded.acceptable.nonempty,loaded.validated,ordered] at run
  exact (congrArg classes run).symm

/-- Of two classes that are stored, the one of the lower rank comes first. -/
theorem stored_lt_iff (run : ofClasses given constants = .ok db) (ma : a ∈ given)
    (mb : b ∈ given) : db.classes.idxOf a < db.classes.idxOf b ↔
      db.index.rank given a < db.index.rank given b := by
  have loaded := loaded_of_ok run
  have sorted := Hierarchy.order_sorted loaded.given_indexes loaded.acceptable.acyclic
  rw [← classes_of_ok run] at sorted
  exact idxOf_lt_iff sorted (loaded.mem_iff.mpr ma) (loaded.mem_iff.mpr mb)

/-- Databases are made of their classes and constants, from which all else follows. -/
theorem eq_of_classes {other : Database} (classes : db.classes = other.classes)
    (constants : db.constants = other.constants) : db = other := by
  have index : db.index = other.index := by rw [db.index_eq,other.index_eq,classes]
  cases db
  cases other
  simp_all

/-- What a database keeps of the classes that it is made of. -/
structure Stores (given : List ClassDecl) (constants : NameMap Int64) (db : Database) : Prop where
  perm : db.classes.Perm given
  found : ∀ c ∈ given, db.get? c.name = some c
  root : db.classes.head? = some db.root ∧ ∀ c ∈ given, c.parent = none ↔ c = db.root
  parentsFirst : ParentsFirst db.classes
  /-- The first one of a family decides, and then the number of classes above. -/
  order : ∀ a ∈ given, ∀ b ∈ given, db.classes.idxOf a < db.classes.idxOf b ↔
    toLex (db.index.firstPlace given a,db.index.depth a) <
      toLex (db.index.firstPlace given b,db.index.depth b)
  kept : ParentsFirst given → db.classes = given
  again : ofClasses db.classes constants = .ok db

/-- The classes of a database are those that were given, in an order that is told by them alone. -/
theorem stores_by_rank (run : ofClasses given constants = .ok db) : Stores given constants db := by
  have loaded := loaded_of_ok run
  have kept {classes : List ClassDecl} {other : Database}
      (run : ofClasses classes constants = .ok other) (first : ParentsFirst classes) :
      other.classes = classes := by
    have loaded := loaded_of_ok run
    rw [classes_of_ok run]
    exact Hierarchy.order_eq_self loaded.given_indexes loaded.acceptable.acyclic first
  constructor
  case perm => exact loaded.perm
  case found => exact fun c member => loaded.given_indexes.self member
  case root =>
    exact ⟨List.head?_eq_some_head db.nonempty,
      fun c member => loaded.root_iff (loaded.mem_iff.mpr member)⟩
  case parentsFirst => exact loaded.parentsFirst
  case order => exact fun a ma b mb => stored_lt_iff run ma mb
  case kept => exact kept run
  case again =>
    have outcome := (ofClasses_settles given constants).sameOutcome (R := fun _ _ => True)
      (ofClasses_settles db.classes constants) loaded.perm.symm fun _ _ _ _ => trivial
    rw [run] at outcome
    cases rerun : ofClasses db.classes constants with
    | error e =>
      rw [rerun] at outcome
      cases outcome
    | ok other =>
      have same := kept rerun loaded.parentsFirst
      rw [eq_of_classes same ((loaded_of_ok rerun).constants.trans loaded.constants.symm)]

/-- A list in which a class comes before its parent, and that before the root. -/
def upsideDown : List ClassDecl :=
  [{ name := "Viewport", parent := some "Node" },{ name := "Node", parent := some "Object" },
   { name := "Reference", parent := some "Object" },{ name := "Object" }]

theorem viewport_brings_its_line : ∃ db, ofClasses upsideDown ∅ = .ok db ∧
    Stores upsideDown ∅ db ∧
    db.classes.map (·.name) = ["Object","Node","Viewport","Reference"] := by
  obtain ⟨db,run,names⟩ : ∃ db, ofClasses upsideDown ∅ = .ok db ∧
      db.classes.map (·.name) = ["Object","Node","Viewport","Reference"] := ⟨_,rfl,rfl⟩
  exact ⟨db,run,stores_by_rank run,names⟩

/-- Of two classes with one parent the one whose family is declared first comes first; so the one
that is declared first does, unless a class below the other one is declared before it. -/
theorem siblings_follow_families (run : ofClasses given constants = .ok db) :
    ∀ a ∈ given, ∀ b ∈ given, a.parent = b.parent →
      (db.classes.idxOf a < db.classes.idxOf b ↔
        db.index.firstPlace given a < db.index.firstPlace given b) ∧
      (given.idxOf a < given.idxOf b → db.classes.idxOf b < db.classes.idxOf a →
        ∃ d ∈ given, d ≠ b ∧ b ∈ db.index.lineage d ∧ given.idxOf d < given.idxOf a) := by
  intro a ma b mb same
  have loaded := loaded_of_ok run
  have indexes := loaded.given_indexes
  have acyclic := loaded.acceptable.acyclic
  have level := Hierarchy.depth_eq_of_parent indexes acyclic ma mb same
  constructor
  · rw [stored_lt_iff run ma mb,Hierarchy.rank_lt_iff]
    omega
  · intro declared stored
    rw [stored_lt_iff run mb ma,Hierarchy.rank_lt_iff] at stored
    have early := Hierarchy.firstPlace_le indexes acyclic ma
    have own := Hierarchy.firstPlace_le indexes acyclic mb
    have bound := List.idxOf_lt_length_of_mem mb
    have inside : db.index.firstPlace given b < given.length := by omega
    have below := List.findIdx_getElem (w := inside)
    have place := indexes.nodup.idxOf_getElem _ inside
    refine ⟨given[db.index.firstPlace given b],List.getElem_mem inside,?_,
      of_decide_eq_true below,?_⟩
    · intro eq
      rw [eq] at place
      omega
    · omega

def left : ClassDecl := { name := "Left", parent := some "Object" }

def right : ClassDecl := { name := "Right", parent := some "Object" }

/-- A class below the second of two siblings is declared before both. -/
def prodigy : List ClassDecl :=
  [{ name := "Object" },{ name := "Leaf", parent := some "Right" },left,right]

theorem sibling_overtaken : ∃ db, ofClasses prodigy ∅ = .ok db ∧
    left ∈ prodigy ∧ right ∈ prodigy ∧ left.parent = right.parent ∧
    prodigy.idxOf left < prodigy.idxOf right ∧ db.classes.idxOf right < db.classes.idxOf left :=
  ⟨_,rfl,by decide,by decide,rfl,by decide,by decide⟩

theorem leaf_brings_right : ∃ db, ofClasses prodigy ∅ = .ok db ∧
    db.index.firstPlace prodigy right < db.index.firstPlace prodigy left ∧
    ∃ d ∈ prodigy, d ≠ right ∧ right ∈ db.index.lineage d ∧
      prodigy.idxOf d < prodigy.idxOf left := by
  obtain ⟨db,run,stored⟩ : ∃ db, ofClasses prodigy ∅ = .ok db ∧
      db.classes.idxOf right < db.classes.idxOf left := ⟨_,rfl,by decide⟩
  have ml : left ∈ prodigy := by decide
  have mr : right ∈ prodigy := by decide
  have first := (siblings_follow_families run right mr left ml rfl).1
  have early := (siblings_follow_families run left ml right mr rfl).2
  exact ⟨db,run,first.mp stored,early (by decide) stored⟩

end Database
end ObjectBridge
