import Mathlib.Logic.Relation
import ObjectBridge.Proofs.Database.Index

/-! Ascents: complete walks along a partial function, up to a value that has no next one. They are
what walks bounded by fuel compute, and a value has one exactly if its walk comes to an end. -/
namespace ObjectBridge

/-- The list has the value, then the next one, and so on to a value without a next one. -/
inductive Ascent (next : α → Option α) : α → List α → Prop where
  | top : next x = none → Ascent next x [x]
  | up : next x = some y → Ascent next y l → Ascent next x (x :: l)

namespace Ascent

variable {next : α → Option α} {x y : α} {l m : List α}

theorem unique (left : Ascent next x l) (right : Ascent next x m) : l = m := by
  induction left generalizing m with
  | top stop =>
    cases right with
    | top _ => rfl
    | up step _ => rw [stop] at step; cases step
  | up step _ ih =>
    cases right with
    | top stop => rw [stop] at step; cases step
    | up other later =>
      obtain rfl := Option.some.inj (step.symm.trans other)
      rw [ih later]

theorem head (ascent : Ascent next x l) : ∃ rest, l = x :: rest := by
  cases ascent with
  | top _ => exact ⟨[],rfl⟩
  | up _ _ => exact ⟨_,rfl⟩

theorem self_mem (ascent : Ascent next x l) : x ∈ l := by
  obtain ⟨rest,rfl⟩ := ascent.head
  exact List.mem_cons_self

/-- What stands in an ascent has the rest of it as its own ascent. -/
theorem of_mem (ascent : Ascent next x l) (member : y ∈ l) :
    ∃ low high, l = low ++ high ∧ Ascent next y high := by
  induction ascent with
  | top stop =>
    obtain rfl := List.mem_singleton.mp member
    exact ⟨[],_,rfl,.top stop⟩
  | @up x z l step later ih =>
    rcases List.mem_cons.mp member with rfl | member
    · exact ⟨[],_,rfl,.up step later⟩
    · obtain ⟨low,high,rfl,rest⟩ := ih member
      exact ⟨x :: low,high,rfl,rest⟩

/-- Nothing comes twice: it would come again and again. -/
theorem nodup (ascent : Ascent next x l) : l.Nodup := by
  induction ascent with
  | top _ => exact List.nodup_singleton _
  | @up x z l step later ih =>
    refine List.nodup_cons.mpr ⟨?_,ih⟩
    intro again
    obtain ⟨low,high,shape,rest⟩ := later.of_mem again
    have same := rest.unique (.up step later)
    have longer := congrArg List.length shape
    rw [same,List.length_append,List.length_cons] at longer
    omega

/-- An ascent has exactly what its first value leads to. -/
theorem mem_iff (ascent : Ascent next x l) :
    y ∈ l ↔ Relation.ReflTransGen (fun a b => next a = some b) x y := by
  constructor
  · intro member
    induction ascent with
    | top _ =>
      obtain rfl := List.mem_singleton.mp member
      exact .refl
    | up step _ ih =>
      rcases List.mem_cons.mp member with rfl | member
      · exact .refl
      · exact .head step (ih member)
  · intro reach
    induction reach using Relation.ReflTransGen.head_induction_on generalizing l with
    | refl => exact ascent.self_mem
    | head step _ ih =>
      cases ascent with
      | top stop => rw [stop] at step; cases step
      | up other later =>
        obtain rfl := Option.some.inj (step.symm.trans other)
        exact List.mem_cons_of_mem _ (ih later)

/-- A value whose walk ends is on no cycle. -/
theorem acyclic (ascent : Ascent next x l) :
    ¬Relation.TransGen (fun a b => next a = some b) x x := by
  intro cycle
  obtain ⟨z,step,back⟩ := Relation.TransGen.head'_iff.mp cycle
  cases ascent with
  | top stop => rw [stop] at step; cases step
  | up other later =>
    obtain rfl := Option.some.inj (step.symm.trans other)
    exact (List.nodup_cons.mp (Ascent.up step later).nodup).1 (later.mem_iff.mpr back)

theorem getLast (ascent : Ascent next x l) : ∃ top, l.getLast? = some top ∧ next top = none := by
  induction ascent with
  | top stop => exact ⟨_,rfl,stop⟩
  | up _ later ih =>
    obtain ⟨top,last,stop⟩ := ih
    obtain ⟨rest,rfl⟩ := later.head
    exact ⟨top,by rwa [List.getLast?_cons_cons],stop⟩

/-- Each value of an ascent but the last is followed by its next one. -/
theorem isChain (ascent : Ascent next x l) : l.IsChain (fun a b => next a = some b) := by
  induction ascent with
  | top _ => exact .singleton _
  | up step later ih =>
    obtain ⟨rest,rfl⟩ := later.head
    exact .cons_cons step ih

/-- All that comes later in an ascent is above. -/
theorem pairwise_above (ascent : Ascent next x l) :
    l.Pairwise (Relation.TransGen fun a b => next a = some b) :=
  (ascent.isChain.imp fun _ _ step => .single step).pairwise

/-- From higher up an ascent is shorter. -/
theorem length_lt (low : Ascent next x l) (high : Ascent next y m)
    (above : Relation.TransGen (fun a b => next a = some b) x y) : m.length < l.length := by
  obtain ⟨z,step,reach⟩ := Relation.TransGen.head'_iff.mp above
  cases low with
  | top stop => simp [step] at stop
  | up other later =>
    obtain rfl := Option.some.inj (step.symm.trans other)
    obtain ⟨front,rest,shape,ascent⟩ := later.of_mem (later.mem_iff.mpr reach)
    obtain rfl := high.unique ascent
    rw [shape,List.length_cons,List.length_append]
    omega

/-- A map that goes along with the two functions carries ascents over. -/
theorem map {next' : β → Option β} (f : α → β) (ascent : Ascent next x l)
    (along : ∀ a ∈ l, next' (f a) = (next a).map f) : Ascent next' (f x) (l.map f) := by
  induction ascent with
  | @top x stop =>
    have stays := along x List.mem_cons_self
    rw [stop,Option.map_none] at stays
    exact .top stays
  | @up x y l step _ ih =>
    have leads := along x List.mem_cons_self
    rw [step,Option.map_some] at leads
    exact .up leads (ih fun a ma => along a (List.mem_cons_of_mem x ma))

/-- With enough fuel a climb is the ascent, up to the first value to stop at. -/
theorem climb_eq (ascent : Ascent next x l) (stop : α → Bool) {fuel : Nat}
    (enough : l.length ≤ fuel) : climb next stop fuel x = l.takeWhile (fun a => !stop a) := by
  induction ascent generalizing fuel with
  | @top x none =>
    obtain ⟨fuel,rfl⟩ := Nat.exists_eq_add_of_le' enough
    cases stops : stop x <;> simp [climb,stops,none]
  | @up x y l step _ ih =>
    rw [List.length_cons] at enough
    obtain ⟨fuel,rfl⟩ := Nat.exists_eq_add_of_le' (Nat.le_trans (Nat.le_add_left 1 _) enough)
    cases stops : stop x with
    | true => simp [climb,stops]
    | false => simp [climb,stops,step,ih (Nat.le_of_succ_le_succ enough)]

end Ascent
end ObjectBridge
