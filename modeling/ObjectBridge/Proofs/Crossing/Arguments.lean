import ObjectBridge.Crossing

/-! Arguments and results on their way. Arguments are counted first and cross from left to right, so
a refusal tells their number or the first one that does not fit; a result is left to be wrapped
exactly if it is an object where objects may be. -/
namespace ObjectBridge

/-- Values of the tag may be objects. -/
def Tag.HoldsObjects (tag : Tag) : Prop := tag = .variant ∨ ∃ cls, tag = .object cls

namespace Crossing

/-- Each value crosses by the coercion at its place. -/
inductive Marshals (l : Lattice) (strict : Bool) :
    List Value → List Coercion → List Variant → Prop where
  | nil : Marshals l strict [] [] []
  | cons : toVariant l strict c v = .ok raw → Marshals l strict vs cs raws →
      Marshals l strict (v :: vs) (c :: cs) (raw :: raws)

/-- The value at the place is the first one that does not cross. -/
inductive Rejects (l : Lattice) (strict : Bool) (m : Mismatch) :
    List Value → List Coercion → Nat → Prop where
  | here : toVariant l strict c v = .error m → Rejects l strict m (v :: vs) (c :: cs) 0
  | later : toVariant l strict c v = .ok raw → Rejects l strict m vs cs i →
      Rejects l strict m (v :: vs) (c :: cs) (i + 1)

/-- What becomes of the arguments of a method. -/
inductive Admits (l : Lattice) (strict : Bool) (method : String) (values : List Value)
    (params : List Coercion) : Except BindError (List Variant) → Prop where
  | miscounted {fault : String} : values.length ≠ params.length →
      Admits l strict method values params (.error (.argumentType method none fault))
  | rejected : values.length = params.length → Rejects l strict m values params i →
      Admits l strict method values params (.error (m.argument method i))
  | accepted : Marshals l strict values params raws →
      Admits l strict method values params (.ok raws)

variable {l : Lattice} {strict : Bool} {method : String} {values : List Value}
  {params : List Coercion} {raws : List Variant} {raw : Variant} {c : Coercion} {h : Handle}

theorem argsFrom_cases (count : values.length = params.length) (index : Nat) :
    (∃ raws, argsFrom l strict method index values params = .ok raws ∧
      Marshals l strict values params raws) ∨
    ∃ m i, argsFrom l strict method index values params =
      .error (m.argument method (index + i)) ∧ Rejects l strict m values params i := by
  induction values generalizing params index with
  | nil =>
    obtain rfl := List.length_eq_zero_iff.mp count.symm
    exact .inl ⟨[],rfl,.nil⟩
  | cons v vs ih =>
    cases params with
    | nil => cases count
    | cons c cs =>
      rw [argsFrom]
      cases sent : toVariant l strict c v with
      | error m => exact .inr ⟨m,0,rfl,.here sent⟩
      | ok raw =>
        rcases ih (Nat.succ.inj count) (index + 1) with ⟨raws,run,all⟩ | ⟨m,i,run,rejects⟩
        · exact .inl ⟨raw :: raws,by simp [run],.cons sent all⟩
        · refine .inr ⟨m,i + 1,?_,.later sent rejects⟩
          rw [run,Nat.add_right_comm,Nat.add_assoc]

theorem args_admits (l : Lattice) (strict : Bool) (method : String) (values : List Value)
    (params : List Coercion) :
    Admits l strict method values params (args l strict method values params) := by
  unfold args
  split
  · rename_i differs
    exact .miscounted differs
  · rename_i count
    have count := Decidable.not_not.mp count
    rcases argsFrom_cases count 0 with ⟨raws,run,all⟩ | ⟨m,i,run,rejects⟩
    · exact run ▸ .accepted all
    · rw [run,Nat.zero_add]
      exact .rejected count rejects

theorem Marshals.length_eq (all : Marshals l strict values params raws) :
    values.length = params.length := by
  induction all with
  | nil => rfl
  | cons _ _ ih => rw [List.length_cons,List.length_cons,ih]

/-- An object is let through as such by the tags that hold objects. -/
theorem receive_eq_object {ids : NameMap ClassId} {tag : Tag}
    (coerced : Coercion.ofTag? ids tag = some c) :
    receive c raw = .ok (.object h) ↔ raw = .object h ∧ tag.HoldsObjects := by
  have holds : tag.HoldsObjects ↔ c = .any ∨ ∃ cls, c = .object cls := by
    unfold Tag.HoldsObjects
    cases tag with
    | object cls =>
      cases cls with
      | none => simp_all [Coercion.ofTag?,eq_comm]
      | some cls =>
        obtain ⟨id,_,rfl⟩ := Option.map_eq_some_iff.mp coerced
        simp
    | _ =>
      cases coerced
      simp
  rw [holds]
  constructor
  · intro received
    cases c with
    | any =>
      cases raw <;> cases received
      exact ⟨rfl,.inl rfl⟩
    | object cls =>
      cases raw <;> cases received
      exact ⟨rfl,.inr ⟨cls,rfl⟩⟩
    | _ => cases raw <;> cases received
  · rintro ⟨rfl,rfl | ⟨cls,rfl⟩⟩ <;> rfl

end Crossing
end ObjectBridge
