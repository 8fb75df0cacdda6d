import ObjectBridge.Database.Error
import ObjectBridge.Proofs.Except

/-! Passes of validation as decisions. A pass decides a property of classes if it succeeds exactly
when they have the property and otherwise reports an error of its own kind. -/
namespace ObjectBridge

/-- A run that succeeds exactly if `P`, and whose errors all belong to the check. -/
structure Decides (check : Check) (run : Except LoadError α) (P : Prop) : Prop where
  sound : ∀ a, run = .ok a → P
  refuted : ∀ e, run = .error e → ¬P ∧ e.check = check

namespace Decides

variable {check : Check} {P Q : Prop}

theorem iff {run : Except LoadError α} (decides : Decides check run P) :
    (∃ a, run = .ok a) ↔ P := by
  constructor
  · rintro ⟨a,ok⟩
    exact decides.sound a ok
  · intro holds
    cases result : run with
    | ok a => exact ⟨a,rfl⟩
    | error e => exact absurd holds (decides.refuted e result).1

theorem ok {run : Except LoadError Unit} (decides : Decides check run P) :
    run = .ok () ↔ P := by
  rw [← decides.iff]
  exact ⟨fun result => ⟨(),result⟩,fun ⟨_,result⟩ => result⟩

theorem congr {run : Except LoadError α} (decides : Decides check run P) (same : P ↔ Q) :
    Decides check run Q :=
  ⟨fun a result => same.mp (decides.sound a result),
    fun e result => ⟨fun q => (decides.refuted e result).1 (same.mpr q),
      (decides.refuted e result).2⟩⟩

theorem success {a : α} (holds : P) : Decides check (.ok a) P :=
  ⟨fun _ _ => holds,nofun⟩

theorem failure {e : LoadError} (fails : ¬P) (kind : e.check = check) :
    Decides check (.error e : Except LoadError α) P :=
  ⟨nofun,fun _ result => Except.error.inj result ▸ ⟨fails,kind⟩⟩

/-- A guard in front of a run decides a conjunct of its own. -/
theorem guard {test : Prop} [Decidable test] {e : LoadError} {run : Except LoadError α}
    (kind : e.check = check) (decides : ¬test → Decides check run P) :
    Decides check (if test then .error e else run) (¬test ∧ P) := by
  split
  · rename_i fails
    exact failure (fun both => both.1 fails) kind
  · rename_i holds
    exact (decides holds).congr (by simp [holds])

/-- One run after another decides both properties; the second may rely on the first. -/
theorem bind {first : Except LoadError α} {next : α → Except LoadError β}
    (decides : Decides check first P)
    (later : ∀ a, first = .ok a → Decides check (next a) Q) :
    Decides check (first >>= next) (P ∧ Q) := by
  cases result : first with
  | error e =>
    obtain ⟨fails,kind⟩ := decides.refuted e result
    exact failure (fun both => fails both.1) kind
  | ok a =>
    have holds := decides.sound a result
    exact (later a result).congr (by simp [holds])

end Decides
end ObjectBridge
