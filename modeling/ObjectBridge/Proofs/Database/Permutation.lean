import ObjectBridge.Proofs.Database.Acceptance

/-! Lists with the same classes in different orders. All that is required of classes is said by
membership and by names that differ, so a requirement that fails for one order fails for every
other one, and the first that fails is the same. -/
namespace ObjectBridge

section Mono

variable {few many : List ClassDecl} {c p owner : ClassDecl} {has : ClassDecl → Option β} {b : β}
  {value target tag : Tag} {m : MethodDecl} {property : PropertyDecl} (within : few ⊆ many)
include within

theorem Parent.mono (parent : Parent few c p) : Parent many c p :=
  ⟨within parent.1,within parent.2.1,parent.2.2⟩

theorem Parent.reach_mono (reach : Relation.ReflTransGen (Parent few) c p) :
    Relation.ReflTransGen (Parent many) c p :=
  Relation.ReflTransGen.mono (fun _ _ parent => parent.mono within) _ _ reach

theorem Nearest.mono (nearest : Nearest few has c owner b) : Nearest many has c owner b := by
  induction nearest with
  | here found => exact .here found
  | above missing parent _ ih => exact .above missing (parent.mono within) ih

theorem Assignable.mono (holds : Assignable few value target) : Assignable many value target := by
  cases holds with
  | same => exact .same
  | variant => exact .variant
  | widen => exact .widen
  | object => exact .object
  | above reach => exact .above (Parent.reach_mono within reach)

theorem Declared.mono (declared : Declared few tag) : Declared many tag := by
  intro name named
  obtain ⟨c,member,same⟩ := declared name named
  exact ⟨c,within member,same⟩

theorem FitsMethod.mono (fits : FitsMethod few m) : FitsMethod many m :=
  ⟨fun tag member => ⟨(fits.params tag member).1,(fits.params tag member).2.mono within⟩,
    fits.returns.mono within⟩

theorem FitsGetter.mono (fits : FitsGetter few property m) : FitsGetter many property m :=
  ⟨fits.1,fits.2.imp_right (·.mono within)⟩

theorem FitsSetter.mono (fits : FitsSetter few property m) : FitsSetter many property m := by
  obtain ⟨param,single,assignable⟩ := fits
  exact ⟨param,single,assignable.mono within⟩

theorem FitsProperty.mono (fits : FitsProperty few c property) :
    FitsProperty many c property := by
  refine ⟨⟨fits.tag.1,fits.tag.2.mono within⟩,?_,?_⟩
  · obtain ⟨owner,m,nearest,getter⟩ := fits.getter
    exact ⟨owner,m,nearest.mono within,getter.mono within⟩
  · intro name named
    obtain ⟨owner,m,nearest,setter⟩ := fits.setter name named
    exact ⟨owner,m,nearest.mono within,setter.mono within⟩

theorem MembersFit.mono (fits : MembersFit few c) : MembersFit many c :=
  ⟨fits.distinct,fun m member => (fits.methods m member).mono within,
    fun name p found => (fits.properties name p found).mono within⟩

end Mono

variable {classes more : List ClassDecl} {checks : List Check} {check first second : Check}

theorem Requires.perm (same : classes.Perm more) (holds : Requires classes check) :
    Requires more check := by
  cases check with
  | document => trivial
  | classNames =>
    refine ⟨?_,(same.map _).nodup_iff.mp holds.2⟩
    rintro rfl
    exact holds.1 same.eq_nil
  | singletonNames =>
    constructor
    · intro s ms single c mc
      exact holds.hides s (same.mem_iff.mpr ms) single c (same.mem_iff.mpr mc)
    · intro s ms t mt
      exact holds.shares s (same.mem_iff.mpr ms) t (same.mem_iff.mpr mt)
  | parents =>
    intro c member name parent
    obtain ⟨p,mp,named⟩ := holds c (same.mem_iff.mpr member) name parent
    exact ⟨p,same.mem_iff.mp mp,named⟩
  | cycles =>
    intro c cycle
    have back := same.symm.subset
    exact holds c (Relation.TransGen.mono (fun _ _ parent => parent.mono back) _ _ cycle)
  | roots =>
    simpa only [Requires,same.mem_iff] using holds
  | members =>
    intro c member
    exact (holds c (same.mem_iff.mpr member)).mono same.subset

namespace FirstFailing

theorem perm (same : classes.Perm more) (failing : FirstFailing classes checks check) :
    FirstFailing more checks check := by
  obtain ⟨before,after,shape,passed,fails⟩ := failing
  exact ⟨before,after,shape,fun earlier member => (passed earlier member).perm same,
    fun holds => fails (holds.perm same.symm)⟩

theorem mem (failing : FirstFailing classes checks check) :
    check ∈ checks ∧ ¬Requires classes check := by
  obtain ⟨before,after,rfl,_,fails⟩ := failing
  exact ⟨List.mem_append_right before List.mem_cons_self,fails⟩

theorem cons_iff {other : Check} : FirstFailing classes (other :: checks) check ↔
    (check = other ∧ ¬Requires classes check) ∨
      (Requires classes other ∧ FirstFailing classes checks check) := by
  constructor
  · rintro ⟨before,after,shape,passed,fails⟩
    cases before with
    | nil =>
      obtain ⟨rfl,_⟩ := List.cons.inj shape
      exact .inl ⟨rfl,fails⟩
    | cons _ before =>
      obtain ⟨rfl,rest⟩ := List.cons.inj shape
      obtain ⟨holds,passed⟩ := List.forall_mem_cons.mp passed
      exact .inr ⟨holds,before,after,rest,passed,fails⟩
  · rintro (⟨rfl,fails⟩ | ⟨holds,before,after,rfl,passed,fails⟩)
    · exact ⟨[],checks,rfl,by simp,fails⟩
    · exact ⟨other :: before,after,rfl,List.forall_mem_cons.mpr ⟨holds,passed⟩,fails⟩

theorem unique (left : FirstFailing classes checks first)
    (right : FirstFailing classes checks second) : first = second := by
  induction checks with
  | nil => exact absurd left.mem.1 List.not_mem_nil
  | cons other checks ih =>
    rcases cons_iff.mp left with ⟨rfl,fails⟩ | ⟨holds,left⟩
    · rcases cons_iff.mp right with ⟨rfl,_⟩ | ⟨holds,_⟩
      · rfl
      · exact absurd holds fails
    · rcases cons_iff.mp right with ⟨rfl,fails⟩ | ⟨_,right⟩
      · exact absurd holds fails
      · exact ih left right

end FirstFailing

/-- Two runs that both end well, with related results, or are both refused by the same check. -/
inductive SameOutcome (R : α → β → Prop) : Except LoadError α → Except LoadError β → Prop where
  | loaded : R a b → SameOutcome R (.ok a) (.ok b)
  | refused : e.check = e'.check → SameOutcome R (.error e) (.error e')

/-- Runs that settle the same requirements of permuted classes have the same outcome. -/
theorem Settles.sameOutcome {run : Except LoadError α} {other : Except LoadError β}
    {R : α → β → Prop} (settles : Settles classes checks run) (also : Settles more checks other)
    (same : classes.Perm more) (related : ∀ a b, run = .ok a → other = .ok b → R a b) :
    SameOutcome R run other := by
  cases ran : run with
  | ok a =>
    cases ranOther : other with
    | ok b => exact .loaded (related a b ran ranOther)
    | error e =>
      obtain ⟨member,fails⟩ := (also.refuted e ranOther).mem
      exact absurd ((settles.sound a ran e.check member).perm same) fails
  | error e =>
    have failing := settles.refuted e ran
    cases ranOther : other with
    | ok b =>
      obtain ⟨member,fails⟩ := failing.mem
      exact absurd ((also.sound b ranOther e.check member).perm same.symm) fails
    | error e' => exact .refused ((failing.perm same).unique (also.refuted e' ranOther))

end ObjectBridge
