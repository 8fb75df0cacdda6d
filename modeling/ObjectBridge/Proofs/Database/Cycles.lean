import Mathlib.Data.List.Chain
import ObjectBridge.Proofs.Database.Ascent

/-! The search for cycles. A walk that meets no class twice comes to a settled class or to a class
without a parent, and it cannot run out of fuel before; so the search passes exactly if no class
is above itself, and then every class has an ascent. -/
namespace ObjectBridge

/-- The parent of a class, both among the given classes. -/
def Parent (classes : List ClassDecl) (c p : ClassDecl) : Prop :=
  c ∈ classes ∧ p ∈ classes ∧ c.parent = some p.name

/-- No class is above itself. -/
def Acyclic (classes : List ClassDecl) : Prop := ∀ c, ¬Relation.TransGen (Parent classes) c c

namespace Indexes

variable {index : ClassIndex} {classes : List ClassDecl} {c p : ClassDecl}

theorem parent?_eq_some (indexes : Indexes index classes) :
    index.parent? c = some p ↔ p ∈ classes ∧ c.parent = some p.name := by
  rw [ClassIndex.parent?,Option.bind_eq_some_iff]
  constructor
  · rintro ⟨name,parent,found⟩
    obtain ⟨mp,rfl⟩ := (indexes.get name p).mp found
    exact ⟨mp,parent⟩
  · rintro ⟨mp,parent⟩
    exact ⟨p.name,parent,indexes.self mp⟩

theorem parent_iff (indexes : Indexes index classes) (mc : c ∈ classes) :
    index.parent? c = some p ↔ Parent classes c p := by
  rw [indexes.parent?_eq_some]
  exact ⟨fun found => ⟨mc,found⟩,fun parent => parent.2⟩

theorem reaches_iff (indexes : Indexes index classes) (mc : c ∈ classes) :
    Relation.ReflTransGen (fun a b => index.parent? a = some b) c p ↔
      Relation.ReflTransGen (Parent classes) c p := by
  constructor
  · intro reach
    induction reach using Relation.ReflTransGen.head_induction_on with
    | refl => exact .refl
    | head step _ ih =>
      have parent := (indexes.parent_iff mc).mp step
      exact .head parent (ih parent.2.1)
  · intro reach
    exact Relation.ReflTransGen.mono
      (fun _ _ parent => (indexes.parent_iff parent.1).mpr parent) c p reach

theorem above_iff (indexes : Indexes index classes) (mc : c ∈ classes) :
    Relation.TransGen (fun a b => index.parent? a = some b) c p ↔
      Relation.TransGen (Parent classes) c p := by
  rw [Relation.TransGen.head'_iff,Relation.TransGen.head'_iff]
  constructor
  · rintro ⟨d,step,reach⟩
    have parent := (indexes.parent_iff mc).mp step
    exact ⟨d,parent,(indexes.reaches_iff parent.2.1).mp reach⟩
  · rintro ⟨d,parent,reach⟩
    exact ⟨d,(indexes.parent_iff mc).mpr parent,(indexes.reaches_iff parent.2.1).mpr reach⟩

/-- A class has at most one parent. -/
theorem parent_unique (indexes : Indexes index classes) :
    Relator.RightUnique (Parent classes) := by
  intro c p q first second
  have same := Option.some.inj (first.2.2.symm.trans second.2.2)
  exact indexes.eq_of_name first.2.1 second.2.1 same

end Indexes

/-- A walk so far, newest value first: each value leads to the one walked to after it, and the
last one leads to where the walk is now. -/
inductive Trail (next : α → Option α) : List α → Option α → Prop where
  | start : Trail next [] now
  | step : next x = now → Trail next path (some x) → Trail next (x :: path) now

namespace Trail

variable {next : α → Option α} {path : List α} {now : Option α} {x y : α}

theorem ascents (trail : Trail next path now)
    (ends : ∀ y, now = some y → ∃ l, Ascent next y l) : ∀ x ∈ path, ∃ l, Ascent next x l := by
  induction trail with
  | start => simp
  | @step x now path leads _ ih =>
    have first : ∃ l, Ascent next x l := by
      cases now with
      | none => exact ⟨[x],.top leads⟩
      | some y =>
        obtain ⟨l,ascent⟩ := ends y rfl
        exact ⟨x :: l,.up leads ascent⟩
    intro z member
    rcases List.mem_cons.mp member with rfl | member
    · exact first
    · exact ih (fun y same => Option.some.inj same ▸ first) z member

theorem reaches (trail : Trail next path (some y)) (member : x ∈ path) :
    Relation.TransGen (fun a b => next a = some b) x y := by
  generalize same : some y = now at trail
  induction trail generalizing y with
  | start => cases member
  | step leads _ ih =>
    subst same
    rcases List.mem_cons.mp member with rfl | member
    · exact .single leads
    · exact .tail (ih member rfl) leads

/-- The path, oldest value first, up to where the walk is now. -/
theorem isChain (trail : Trail next path now) (here : now = some y) :
    (path.reverse ++ [y]).IsChain fun a b => next a = some b := by
  induction trail generalizing y with
  | start => exact .singleton y
  | @step x now path leads _ ih =>
    have before := ih rfl
    rw [List.reverse_cons,List.isChain_append]
    refine ⟨before,.singleton y,?_⟩
    simp [leads,here]

end Trail

namespace Hierarchy

variable {index : ClassIndex} {classes path full : List ClassDecl} {settled : List String}

/-- Where a walk stands: its path has different classes, each leading to the next one. -/
structure Walking (index : ClassIndex) (classes path : List ClassDecl) (now : Option ClassDecl) :
    Prop where
  trail : Trail index.parent? path now
  within : ∀ c ∈ path, c ∈ classes
  distinct : (path.map (·.name)).Nodup
  now_mem : ∀ c, now = some c → c ∈ classes

namespace Walking

variable {now : Option ClassDecl} {c : ClassDecl}

theorem start (member : c ∈ classes) : Walking index classes [] (some c) :=
  ⟨.start,by simp,List.nodup_nil,fun _ same => Option.some.inj same ▸ member⟩

theorem next (indexes : Indexes index classes) (walking : Walking index classes path (some c))
    (fresh : c ∉ path) : Walking index classes (c :: path) (index.parent? c) := by
  have member := walking.now_mem c rfl
  refine ⟨.step rfl walking.trail,?_,?_,?_⟩
  · intro d md
    rcases List.mem_cons.mp md with rfl | md
    · exact member
    · exact walking.within d md
  · refine List.nodup_cons.mpr ⟨?_,walking.distinct⟩
    intro again
    obtain ⟨d,md,same⟩ := List.mem_map.mp again
    exact fresh (indexes.eq_of_name (walking.within d md) member same ▸ md)
  · exact fun p found => (indexes.parent?_eq_some.mp found).1

theorem distinct_reverse (walking : Walking index classes path now) :
    (path.reverse.map (·.name)).Nodup := by
  rw [List.map_reverse,List.nodup_reverse]
  exact walking.distinct

end Walking

/-- Classes whose walk comes to an end. -/
def Ends (index : ClassIndex) (c : ClassDecl) : Prop := ∃ l, Ascent index.parent? c l

theorem ends_of_next {c : ClassDecl} (ends : ∀ p, index.parent? c = some p → Ends index p) :
    Ends index c := by
  cases found : index.parent? c with
  | none => exact ⟨[c],.top found⟩
  | some p =>
    obtain ⟨l,ascent⟩ := ends p found
    exact ⟨c :: l,.up found ascent⟩

/-- A walk that meets no class twice ends, with all that it met. -/
theorem walk_ok (indexes : Indexes index classes)
    (settles : ∀ d ∈ classes, d.name ∈ settled → Ends index d) {fuel : Nat}
    {now : Option ClassDecl} (walking : Walking index classes path now)
    (budget : path.length + fuel = index.size + 1)
    (run : walk index settled fuel path now = .ok full) :
    (∀ c ∈ full, c ∈ classes ∧ Ends index c) ∧ ∀ c, now = some c → Ends index c := by
  induction fuel generalizing path now with
  | zero =>
    -- the path would have more different classes than there are
    have := indexes.length_le walking.within walking.distinct
    omega
  | succ fuel ih =>
    have stop (ends : ∀ c, now = some c → Ends index c) :
        (∀ c ∈ path, c ∈ classes ∧ Ends index c) ∧ ∀ c, now = some c → Ends index c :=
      ⟨fun c mc => ⟨walking.within c mc,walking.trail.ascents ends c mc⟩,ends⟩
    cases now with
    | none =>
      obtain rfl : path = full := Except.ok.inj run
      exact stop (by simp)
    | some c =>
      have member := walking.now_mem c rfl
      simp only [walk,indexes.any_name_eq walking.within member,decide_eq_true_eq] at run
      by_cases known : c.name ∈ settled
      · rw [if_pos known] at run
        obtain rfl : path = full := Except.ok.inj run
        exact stop fun d same => Option.some.inj same ▸ settles c member known
      · by_cases met : c ∈ path
        · simp [known,met] at run
        · simp only [known,met,if_false] at run
          obtain ⟨all,above⟩ := ih (walking.next indexes met) (by simp; omega) run
          exact ⟨all,fun d same => Option.some.inj same ▸ ends_of_next above⟩

/-- A walk that has come back to a class of its path. -/
structure Loops (index : ClassIndex) (classes path : List ClassDecl) (c : ClassDecl) : Prop where
  walking : Walking index classes path (some c)
  again : c ∈ path

theorem Loops.cyclic {c : ClassDecl} (loops : Loops index classes path c) :
    Relation.TransGen (fun a b => index.parent? a = some b) c c :=
  loops.walking.trail.reaches loops.again

/-- A walk that fails was only carried on, until it came back to a class of its path. -/
theorem walk_error (indexes : Indexes index classes) {fuel : Nat} {now : Option ClassDecl}
    {e : LoadError} (walking : Walking index classes path now)
    (run : walk index settled fuel path now = .error e) :
    ∃ full c, e = .cycle (closedWalk full c) ∧ Loops index classes full c ∧
      path.reverse ++ now.toList <+: full.reverse ++ [c] := by
  induction fuel generalizing path now with
  | zero => cases run
  | succ fuel ih =>
    cases now with
    | none => cases run
    | some c =>
      have member := walking.now_mem c rfl
      simp only [walk,indexes.any_name_eq walking.within member,decide_eq_true_eq] at run
      split at run
      · cases run
      · by_cases met : c ∈ path
        · rw [if_pos met] at run
          exact ⟨path,c,(Except.error.inj run).symm,⟨walking,met⟩,List.prefix_rfl⟩
        · rw [if_neg met] at run
          obtain ⟨full,d,same,loops,start⟩ := ih (walking.next indexes met) run
          rw [List.reverse_cons] at start
          exact ⟨full,d,same,loops,(List.prefix_append _ _).trans start⟩

/-- What was walked without meeting a class twice is settled. -/
theorem settles_append (indexes : Indexes index classes)
    (settles : ∀ d ∈ classes, d.name ∈ settled → Ends index d)
    (all : ∀ c ∈ full, c ∈ classes ∧ Ends index c) :
    ∀ d ∈ classes, d.name ∈ full.map (·.name) ++ settled → Ends index d := by
  intro d md known
  rcases List.mem_append.mp known with new | old
  · obtain ⟨a,ma,same⟩ := List.mem_map.mp new
    obtain ⟨memberA,ends⟩ := all a ma
    exact indexes.eq_of_name memberA md same ▸ ends
  · exact settles d md old

theorem checkCycles_ok (indexes : Indexes index classes) {rest : List ClassDecl}
    (settles : ∀ d ∈ classes, d.name ∈ settled → Ends index d)
    (among : ∀ c ∈ rest, c ∈ classes) (run : checkCycles index settled rest = .ok ()) :
    ∀ c ∈ rest, Ends index c := by
  induction rest generalizing settled with
  | nil => simp
  | cons c rest ih =>
    unfold checkCycles at run
    split at run
    · cases run
    · rename_i full walked
      have member := among c List.mem_cons_self
      obtain ⟨all,first⟩ := walk_ok indexes settles (.start member) (by simp) walked
      refine List.forall_mem_cons.mpr ⟨first c rfl,?_⟩
      exact ih (settles_append indexes settles all)
        (fun d md => among d (List.mem_cons_of_mem _ md)) run

/-- The search fails at the first class whose walk does not end. -/
theorem checkCycles_error (indexes : Indexes index classes) {rest : List ClassDecl}
    {e : LoadError} (settles : ∀ d ∈ classes, d.name ∈ settled → Ends index d)
    (among : ∀ c ∈ rest, c ∈ classes) (run : checkCycles index settled rest = .error e) :
    ∃ before start after full c, rest = before ++ start :: after ∧ (∀ d ∈ before, Ends index d) ∧
      e = .cycle (closedWalk full c) ∧ Loops index classes full c ∧
      [start] <+: full.reverse ++ [c] := by
  induction rest generalizing settled with
  | nil => cases run
  | cons c rest ih =>
    have member := among c List.mem_cons_self
    unfold checkCycles at run
    split at run
    · rename_i failed
      obtain rfl := Except.error.inj run
      obtain ⟨full,d,same,loops,start⟩ := walk_error indexes (.start member) failed
      exact ⟨[],c,rest,full,d,rfl,by simp,same,loops,start⟩
    · rename_i path walked
      obtain ⟨all,first⟩ := walk_ok indexes settles (.start member) (by simp) walked
      have settled' := settles_append indexes settles all
      obtain ⟨before,start,after,full,d,shape,ends,same,loops,front⟩ :=
        ih settled' (fun d md => among d (List.mem_cons_of_mem _ md)) run
      exact ⟨c :: before,start,after,full,d,by rw [shape,List.cons_append],
        List.forall_mem_cons.mpr ⟨first c rfl,ends⟩,same,loops,front⟩

/-- The search for cycles decides whether there is none. -/
theorem checkCycles_decides (indexes : Indexes index classes) :
    Decides .cycles (checkCycles index [] classes) (Acyclic classes) := by
  constructor
  · intro _ run c cycle
    have member : c ∈ classes := by
      obtain ⟨d,parent,_⟩ := Relation.TransGen.head'_iff.mp cycle
      exact parent.1
    obtain ⟨l,ascent⟩ := checkCycles_ok indexes (by simp) (fun _ mc => mc) run c member
    exact ascent.acyclic ((indexes.above_iff member).mpr cycle)
  · intro e run
    obtain ⟨_,_,_,full,c,_,_,rfl,loops,_⟩ :=
      checkCycles_error indexes (by simp) (fun _ mc => mc) run
    have member := loops.walking.within c loops.again
    exact ⟨fun acyclic => acyclic c ((indexes.above_iff member).mp loops.cyclic),rfl⟩

/-- Without a cycle every class has an ascent. -/
theorem ascent_of_acyclic (indexes : Indexes index classes) (acyclic : Acyclic classes)
    {c : ClassDecl} (member : c ∈ classes) : ∃ l, Ascent index.parent? c l :=
  checkCycles_ok indexes (by simp) (fun _ mc => mc)
    ((checkCycles_decides indexes).ok.mpr acyclic) c member

end Hierarchy
end ObjectBridge
