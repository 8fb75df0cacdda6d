import ObjectBridge.Engine
import ObjectBridge.Proofs.Database.Ancestors

/-! Lineages of an engine. An engine walks along names and stops where it has been before, so every
walk ends, whatever classes are recorded. Where they end above a root it never has been anywhere
twice, and on the classes of a database it finds the same ancestors as the database does. A new
object has the defaults of the nearest classes. -/
namespace ObjectBridge.Engine

variable {e : Engine} {cls : String} {names seen : List String}

/-- The default of a field: that of the nearest class that has one. -/
def default? (e : Engine) (cls field : String) : Option Variant :=
  (e.lineage cls).findSome? fun c => (e.defaultsOf c)[field]?

/-- The defaults of nearer classes are put over those from above. -/
theorem initialFields_getElem? (e : Engine) (cls field : String) :
    (e.initialFields cls)[field]? = e.default? cls field := by
  rw [initialFields,default?,List.foldl_reverse]
  induction e.lineage cls with
  | nil => rfl
  | cons c above ih =>
    rw [List.foldr_cons,List.findSome?_cons,Std.ExtTreeMap.getElem?_union,ih]
    cases (e.defaultsOf c)[field]? <;> rfl

/-- A walk that comes to an end never meets a class twice, so the guard against cycles and the
fuel play no part. -/
theorem walk_eq (ascent : Ascent e.parent? cls names) (fresh : ∀ name ∈ names, name ∉ seen)
    {fuel : Nat} (enough : names.length ≤ fuel) : e.walk seen fuel cls = names := by
  induction ascent generalizing seen fuel with
  | @top cls stop =>
    obtain ⟨fuel,rfl⟩ := Nat.exists_eq_add_of_le' enough
    have new : cls ∉ seen := fresh cls List.mem_cons_self
    simp [walk,new,stop]
  | @up cls parent names step later ih =>
    rw [List.length_cons] at enough
    obtain ⟨fuel,rfl⟩ := Nat.exists_eq_add_of_le' (Nat.le_trans (Nat.le_add_left 1 _) enough)
    have new : cls ∉ seen := fresh cls List.mem_cons_self
    have apart : cls ∉ names := (List.nodup_cons.mp (Ascent.up step later).nodup).1
    have ahead : ∀ name ∈ names, name ∉ cls :: seen := by
      intro name member
      refine List.not_mem_cons_of_ne_of_not_mem ?_ (fresh name (List.mem_cons_of_mem cls member))
      rintro rfl
      exact apart member
    simp [walk,new,step,ih ahead (Nat.le_of_succ_le_succ enough)]

/-- The classes met on the way up from a class, each the recorded parent of the one before. It ends
where no parent is recorded, or one that was met already. -/
structure Ancestry (e : Engine) (cls : String) (line : List String) : Prop where
  starts : line.head? = some cls
  steps : line.IsChain fun a b => e.parent? a = some b
  apart : line.Nodup
  stops : ∀ last, line.getLast? = some last → ∀ parent, e.parent? last = some parent →
    parent ∈ line

theorem defined_of_parent? {parent : String} (known : e.parent? cls = some parent) :
    cls ∈ e.classes := by
  obtain ⟨c,found,_⟩ := Option.bind_eq_some_iff.mp known
  rw [Std.ExtTreeMap.mem_iff_isSome_getElem?,found,Option.isSome_some]

/-- A walk goes on until it has to stop: all classes that it left are defined, so they are no more
than the fuel. -/
theorem walk_stops {start : String} {fuel : Nat} (trail : Trail e.parent? seen (some cls))
    (starts : (seen.reverse ++ [cls]).head? = some start) (apart : (cls :: seen).Nodup)
    (defined : ∀ name ∈ seen, name ∈ e.classes) (enough : e.classes.size < seen.length + fuel) :
    Ancestry e start (seen.reverse ++ e.walk seen fuel cls) := by
  -- on the fuel; the classes seen are defined and differ, which bounds their number
  induction fuel generalizing seen cls with
  | zero =>
    have few := NameMap.length_le_size (List.nodup_cons.mp apart).2 defined
    omega
  | succ fuel ih =>
    obtain ⟨new,_⟩ := List.nodup_cons.mp apart
    have once : (seen.reverse ++ [cls]).Nodup := by
      rw [← List.reverse_cons]
      exact List.nodup_reverse.mpr apart
    have ends (stops : ∀ parent, e.parent? cls = some parent → parent ∈ cls :: seen) :
        Ancestry e start (seen.reverse ++ [cls]) := by
      refine ⟨starts,trail.isChain rfl,once,?_⟩
      intro last same parent known
      obtain rfl : cls = last := by simpa using same
      simpa [or_comm] using stops parent known
    unfold walk
    rw [if_neg new]
    cases step : e.parent? cls with
    | none => exact ends (by simp [step])
    | some parent =>
      by_cases met : parent ∈ cls :: seen
      · have nothing : e.walk (cls :: seen) fuel parent = [] := by
          cases fuel with
          | zero => rfl
          | succ fuel => rw [walk,if_pos met]
        simp only [nothing]
        refine ends fun other known => ?_
        obtain rfl := Option.some.inj (step.symm.trans known)
        exact met
      · have rest := ih (.step step trail) (by simpa using starts) (List.nodup_cons.mpr ⟨met,apart⟩)
          (List.forall_mem_cons.mpr ⟨defined_of_parent? step,defined⟩)
          (by rw [List.length_cons]; omega)
        simpa using rest

/-- Whatever classes are recorded, a lineage is the whole way up. -/
theorem lineage_ancestry (e : Engine) (cls : String) : Ancestry e cls (e.lineage cls) := by
  have begun : Trail e.parent? [] (some cls) := .start
  have enough : e.classes.size < ([] : List String).length + (e.classes.size + 1) := by simp
  exact walk_stops begun rfl (List.nodup_singleton cls) nofun enough

/-- Every class of the database is defined with its parent there; the engine may have more. -/
def Defines (e : Engine) (db : Database) : Prop :=
  ∀ c ∈ db.classes, ∃ d : EngineClass, e.classes[c.name]? = some d ∧ d.parent = c.parent

namespace Defines

variable {given : List ClassDecl} {constants : NameMap Int64} {db : Database} {c : ClassDecl}

theorem parent?_eq (defines : e.Defines db) (member : c ∈ db.classes) :
    e.parent? c.name = c.parent := by
  obtain ⟨d,found,same⟩ := defines c member
  rw [parent?,found,Option.bind_some,same]

theorem lineage_eq (defines : e.Defines db) (loaded : Database.Loaded given constants db)
    (member : c ∈ db.classes) : e.lineage c.name = (db.ancestors c.name).map (·.name) := by
  have within := loaded.ancestors_within member
  have ascent : Ascent e.parent? c.name ((db.ancestors c.name).map (·.name)) := by
    apply (loaded.ascent member).map
    intro d above
    rw [defines.parent?_eq (within d above),loaded.map_parent? (within d above)]
  have all : ∀ name ∈ (db.ancestors c.name).map (·.name), name ∈ e.classes := by
    intro name above
    obtain ⟨a,ma,rfl⟩ := List.mem_map.mp above
    obtain ⟨d,found,_⟩ := defines a (within a ma)
    rw [Std.ExtTreeMap.mem_iff_isSome_getElem?,found,Option.isSome_some]
  have enough := NameMap.length_le_size ascent.nodup all
  exact walk_eq ascent (fun _ _ => List.not_mem_nil) (Nat.le_succ_of_le enough)

end Defines
end ObjectBridge.Engine
