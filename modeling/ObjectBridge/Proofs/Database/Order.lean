import ObjectBridge.Proofs.Database.Nearest

/-! The stored order of classes. A class is placed together with all that are missing above it, so
at every moment each placed class has its parent behind it; the finished list is turned around. -/
namespace ObjectBridge

def ParentsDeclared (classes : List ClassDecl) : Prop :=
  ∀ c ∈ classes, ∀ name, c.parent = some name → ∃ p ∈ classes, p.name = name

/-- Each class comes after its parent. -/
def ParentsFirst (classes : List ClassDecl) : Prop :=
  ∀ before c after, classes = before ++ c :: after →
    ∀ name, c.parent = some name → ∃ p ∈ before, p.name = name

/-- Different classes, the newest first, each in front of its parent. -/
inductive Placed (classes : List ClassDecl) : List ClassDecl → Prop where
  | none : Placed classes []
  | next : c ∈ classes → c ∉ placed →
      (∀ name, c.parent = some name → ∃ p ∈ placed, p.name = name) →
      Placed classes placed → Placed classes (c :: placed)

namespace Placed

variable {classes placed : List ClassDecl}

theorem within (done : Placed classes placed) : ∀ c ∈ placed, c ∈ classes := by
  induction done with
  | none => simp
  | next member _ _ _ ih =>
    intro d md
    rcases List.mem_cons.mp md with rfl | md
    · exact member
    · exact ih d md

theorem nodup (done : Placed classes placed) : placed.Nodup := by
  induction done with
  | none => exact List.nodup_nil
  | next _ new _ _ ih => exact List.nodup_cons.mpr ⟨new,ih⟩

theorem behind (done : Placed classes placed) {low high : List ClassDecl} {c : ClassDecl}
    (shape : placed = low ++ c :: high) {name : String} (parent : c.parent = some name) :
    ∃ p ∈ high, p.name = name := by
  induction done generalizing low with
  | none => simp at shape
  | next _ _ above _ ih =>
    cases low with
    | nil =>
      obtain ⟨rfl,rfl⟩ := List.cons.inj shape
      exact above name parent
    | cons _ low => exact ih (List.cons.inj shape).2

end Placed

namespace Hierarchy

variable {index : ClassIndex} {classes placed l : List ClassDecl} {c : ClassDecl}

/-- What an ascent adds up to the first class that is placed already. -/
theorem placed_ascent (indexes : Indexes index classes) (declared : ParentsDeclared classes)
    (done : Placed classes placed) (ascent : Ascent index.parent? c l) (member : c ∈ classes) :
    Placed classes (l.takeWhile (fun a => !placed.any (·.name == a.name)) ++ placed) ∧
      c ∈ l.takeWhile (fun a => !placed.any (·.name == a.name)) ++ placed := by
  induction ascent with
  | @top c stop =>
    have test := indexes.any_name_eq done.within member
    by_cases met : c ∈ placed
    · simpa [test,met] using done
    · have root (name : String) (parent : c.parent = some name) : False := by
        obtain ⟨p,mp,rfl⟩ := declared c member name parent
        rw [indexes.parent?_eq_some.mpr ⟨mp,parent⟩] at stop
        cases stop
      simp only [List.takeWhile_cons,test,met,decide_false,Bool.not_false,if_true,
        List.takeWhile_nil,List.cons_append,List.nil_append]
      exact ⟨.next member met (fun name parent => (root name parent).elim) done,
        List.mem_cons_self⟩
  | @up c p l step above ih =>
    obtain ⟨mp,parent⟩ := indexes.parent?_eq_some.mp step
    have test := indexes.any_name_eq done.within member
    by_cases met : c ∈ placed
    · simpa [test,met] using done
    · simp only [List.takeWhile_cons,test,met,decide_false,Bool.not_false,if_true,
        List.cons_append]
      obtain ⟨rest,reached⟩ := ih mp
      -- what is placed above does not have the class, or it would be above itself
      refine ⟨.next member ?_ ?_ rest,List.mem_cons_self⟩
      · intro again
        rcases List.mem_append.mp again with again | again
        · exact (List.nodup_cons.mp (Ascent.up step above).nodup).1
            ((List.takeWhile_sublist _).mem again)
        · exact met again
      · intro name named
        obtain rfl := Option.some.inj (parent.symm.trans named)
        exact ⟨p,reached,rfl⟩

variable (indexes : Indexes index classes) (declared : ParentsDeclared classes)
  (acyclic : Acyclic classes)
include indexes declared acyclic

theorem place_placed (done : Placed classes placed) (member : c ∈ classes) :
    Placed classes (place index placed c) ∧ c ∈ place index placed c := by
  obtain ⟨l,ascent⟩ := ascent_of_acyclic indexes acyclic member
  rw [place,ascent.climb_eq _ (indexes.ascent_length_le ascent member)]
  exact placed_ascent indexes declared done ascent member

theorem foldl_placed {rest : List ClassDecl} (among : ∀ c ∈ rest, c ∈ classes)
    (done : Placed classes placed) :
    Placed classes (rest.foldl (place index) placed) ∧
      (∀ c ∈ placed, c ∈ rest.foldl (place index) placed) ∧
      ∀ c ∈ rest, c ∈ rest.foldl (place index) placed := by
  induction rest generalizing placed with
  | nil => exact ⟨done,fun _ member => member,by simp⟩
  | cons c rest ih =>
    obtain ⟨more,reached⟩ := place_placed indexes declared acyclic done (among c List.mem_cons_self)
    obtain ⟨all,kept,added⟩ := ih (fun d md => among d (List.mem_cons_of_mem c md)) more
    refine ⟨all,fun d md => kept d (List.mem_append_right _ md),?_⟩
    intro d md
    rcases List.mem_cons.mp md with rfl | md
    · exact kept d reached
    · exact added d md

/-- No class is lost and none comes twice. -/
theorem order_perm : (order index classes).Perm classes := by
  obtain ⟨all,_,added⟩ :=
    foldl_placed indexes declared acyclic (fun _ member => member) Placed.none
  refine (List.reverse_perm _).trans ?_
  rw [List.perm_ext_iff_of_nodup all.nodup indexes.nodup]
  exact fun c => ⟨all.within c,added c⟩

theorem order_parentsFirst : ParentsFirst (order index classes) := by
  obtain ⟨all,_,_⟩ := foldl_placed indexes declared acyclic (fun _ member => member) Placed.none
  intro before c after shape name parent
  have turned : classes.foldl (place index) [] = after.reverse ++ c :: before.reverse := by
    rw [← List.reverse_reverse (classes.foldl _ _)]
    exact (congrArg List.reverse shape).trans (by simp)
  obtain ⟨p,mp,named⟩ := all.behind turned parent
  exact ⟨p,List.mem_reverse.mp mp,named⟩

end Hierarchy
end ObjectBridge
