import Mathlib.Data.List.Forall2

/-! Runs that succeed: one after another, and one for each element of a list. -/
namespace ObjectBridge

theorem bind_eq_ok {first : Except ε α} {next : α → Except ε β} {b : β} :
    first >>= next = .ok b ↔ ∃ a, first = .ok a ∧ next a = .ok b := by
  cases first with
  | error e => exact ⟨nofun,nofun⟩
  | ok a => exact ⟨fun run => ⟨a,rfl,run⟩,fun ⟨_,same,run⟩ => Except.ok.inj same ▸ run⟩

theorem mapError_eq_ok {run : Except ε α} {f : ε → ε'} {a : α} :
    run.mapError f = .ok a ↔ run = .ok a := by
  cases run <;> simp [Except.mapError]

variable {f : α → Except ε β} {l : List α} {results : List β}

theorem mapM_eq_ok :
    l.mapM f = .ok results ↔ List.Forall₂ (fun a b => f a = .ok b) l results := by
  induction l generalizing results with
  | nil =>
    rw [List.mapM_nil,List.forall₂_nil_left_iff]
    exact ⟨fun run => (Except.ok.inj run).symm,fun none => none ▸ rfl⟩
  | cons a l ih =>
    rw [List.mapM_cons,List.forall₂_cons_left_iff,bind_eq_ok]
    constructor
    · rintro ⟨b,first,run⟩
      obtain ⟨rest,later,same⟩ := bind_eq_ok.mp run
      exact ⟨b,rest,first,ih.mp later,(Except.ok.inj same).symm⟩
    · rintro ⟨b,rest,first,later,rfl⟩
      exact ⟨b,first,bind_eq_ok.mpr ⟨rest,ih.mpr later,rfl⟩⟩

theorem exists_mapM (each : ∀ a ∈ l, ∃ b, f a = .ok b) : ∃ results, l.mapM f = .ok results := by
  induction l with
  | nil => exact ⟨[],rfl⟩
  | cons a l ih =>
    obtain ⟨b,first⟩ := each a List.mem_cons_self
    obtain ⟨rest,later⟩ := ih fun a ma => each a (List.mem_cons_of_mem _ ma)
    exact ⟨b :: rest,mapM_eq_ok.mpr (.cons first (mapM_eq_ok.mp later))⟩

theorem mem_mapM (run : l.mapM f = .ok results) {b : β} :
    b ∈ results ↔ ∃ a ∈ l, f a = .ok b := by
  induction mapM_eq_ok.mp run with
  | nil => simp
  | @cons a c l rest first later ih =>
    rw [List.mem_cons,List.exists_mem_cons_iff,ih (mapM_eq_ok.mpr later),first,Except.ok.injEq,
      eq_comm]

theorem exists_of_mapM (run : l.mapM f = .ok results) {a : α} (member : a ∈ l) :
    ∃ b ∈ results, f a = .ok b := by
  induction mapM_eq_ok.mp run with
  | nil => cases member
  | @cons first c l rest made later ih =>
    rcases List.mem_cons.mp member with rfl | member
    · exact ⟨c,List.mem_cons_self,made⟩
    · obtain ⟨b,mb,same⟩ := ih (mapM_eq_ok.mpr later) member
      exact ⟨b,List.mem_cons_of_mem c mb,same⟩

/-- What can be read off the results, if it is what can be read off the elements. -/
theorem map_of_mapM {g : α → γ} {k : β → γ} (run : l.mapM f = .ok results) (agree : ∀ a b, f a = .ok b → k b = g a) :
    results.map k = l.map g := by
  induction mapM_eq_ok.mp run with
  | nil => rfl
  | cons first later ih =>
    rw [List.map_cons,List.map_cons,agree _ _ first,ih (mapM_eq_ok.mpr later)]

/-- Without some elements of a list the run on the others gives the same. -/
theorem mapM_filter {keep : α → Bool} {kept : β → Bool} (run : l.mapM f = .ok results)
    (agree : ∀ a b, f a = .ok b → kept b = keep a) :
    (l.filter keep).mapM f = .ok (results.filter kept) := by
  rw [mapM_eq_ok] at run ⊢
  induction run with
  | nil => exact .nil
  | @cons a b l results first _ ih =>
    rw [List.filter_cons,List.filter_cons,agree a b first]
    split
    · exact .cons first ih
    · exact ih

/-- Two lists that go along with one list are related if they are element by element. -/
theorem forall₂_of_common {P : α → β → Prop} {Q : α → γ → Prop} {R : β → γ → Prop}
    {others : List γ} (each : ∀ a b c, P a b → Q a c → R b c) (first : List.Forall₂ P l results)
    (second : List.Forall₂ Q l others) : List.Forall₂ R results others := by
  induction first generalizing others with
  | nil =>
    cases second
    exact .nil
  | cons holds _ ih =>
    cases second with
    | cons also later => exact .cons (each _ _ _ holds also) (ih later)

end ObjectBridge
