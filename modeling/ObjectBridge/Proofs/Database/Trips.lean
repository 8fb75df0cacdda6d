import Mathlib.Data.List.TakeWhile
import ObjectBridge.Proofs.Database.Ascent

/-! Walks along a partial function that say where they ended. Each value that a walk leaves behind
costs a unit of fuel, and a walk that has none left when it needs it has no result; so a walk
without an end has none, however much fuel it has. -/
namespace ObjectBridge

/-- The values that a walk left behind, newest first, and the one that it stopped at with its
answer, unless it came to an end. -/
structure Trip (α β : Type) where
  passed : List α
  stop : Option (α × β)

/-- Walk on until a value answers, which may hang on the values left behind, or until there is no
next one. -/
def travel (next : α → Option α) (answer : List α → α → Option β) :
    Nat → List α → Option α → Option (Trip α β)
  | _, passed, none => some ⟨passed,none⟩
  | fuel, passed, some x =>
    match answer passed x, fuel with
    | some b, _ => some ⟨passed,some (x,b)⟩
    | none, 0 => none
    | none, fuel + 1 => travel next answer fuel (x :: passed) (next x)

namespace Trip

def answer? (trip : Trip α β) : Option β := trip.stop.map (·.2)

/-- All values that were looked at, in the order of the walk. -/
def visited (trip : Trip α β) : List α := trip.passed.reverse ++ (trip.stop.map (·.1)).toList

/-- The trip along a complete walk, up to the first value that answers. -/
def along (answer : α → Option β) (l : List α) : Trip α β where
  passed := (l.takeWhile fun a => (answer a).isNone).reverse
  stop := l.findSome? fun a => (answer a).map fun b => (a,b)

variable {next : α → Option α} {x : α} {l : List α}

theorem answer?_along (answer : α → Option β) (l : List α) :
    (along answer l).answer? = l.findSome? answer := by
  simp only [answer?,along]
  induction l with
  | nil => rfl
  | cons a l ih =>
    rw [List.findSome?_cons,List.findSome?_cons]
    cases answer a with
    | none => exact ih
    | some b => rfl

theorem along_none (l : List α) : along (fun _ => (none : Option β)) l = ⟨l.reverse,none⟩ := by
  simp [along]

/-- No more than the complete walk is looked at. -/
theorem visited_along (answer : α → Option β) (l : List α) : (along answer l).visited <+: l := by
  simp only [visited,along,List.reverse_reverse]
  induction l with
  | nil => exact List.nil_prefix
  | cons a l ih =>
    rw [List.findSome?_cons,List.takeWhile_cons]
    cases answer a with
    | none => exact List.cons_prefix_cons.mpr ⟨rfl,ih⟩
    | some b => exact List.cons_prefix_cons.mpr ⟨rfl,List.nil_prefix⟩

/-- Where a complete walk exists, its length is enough fuel. -/
theorem travel_of_ascent (ascent : Ascent next x l) (answer : α → Option β) (passed : List α)
    {fuel : Nat} (enough : l.length ≤ fuel) :
    travel next (fun _ => answer) fuel passed (some x) =
      some ⟨(along answer l).passed ++ passed,(along answer l).stop⟩ := by
  induction ascent generalizing passed fuel with
  | @top x stop =>
    obtain ⟨fuel,rfl⟩ := Nat.exists_eq_add_of_le' enough
    cases answers : answer x <;> simp [travel,along,answers,stop]
  | @up x y l step _ ih =>
    rw [List.length_cons] at enough
    obtain ⟨fuel,rfl⟩ := Nat.exists_eq_add_of_le' (Nat.le_trans (Nat.le_add_left 1 _) enough)
    have rest := ih (x :: passed) (Nat.le_of_succ_le_succ enough)
    cases answers : answer x with
    | none => simp [travel,along,answers,step] at rest ⊢; exact rest
    | some b => simp [travel,along,answers]

/-- Where nothing answers, some fuel is enough exactly if a complete walk exists. -/
theorem travel_ends_iff : (∃ fuel passed, ∃ trip : Trip α β,
    travel next (fun _ _ => none) fuel passed (some x) = some trip) ↔ ∃ l, Ascent next x l := by
  constructor
  · rintro ⟨fuel,passed,trip,run⟩
    induction fuel generalizing x passed with
    | zero => cases run
    | succ fuel ih =>
      cases step : next x with
      | none => exact ⟨[x],.top step⟩
      | some y =>
        simp only [travel,step] at run
        obtain ⟨l,ascent⟩ := ih (x :: passed) run
        exact ⟨x :: l,.up step ascent⟩
  · rintro ⟨l,ascent⟩
    exact ⟨l.length,[],_,travel_of_ascent ascent (fun _ => none) [] (Nat.le_refl _)⟩

end Trip
end ObjectBridge
