import ObjectBridge.Proofs.Bridge.Founding
import ObjectBridge.Session.Step

/-! Acts in a session. An act moves the engine, then it visits the cache; the references that it
gives are at hand until they are kept or given back, all others are accounted for by the slots and
the singletons. -/
namespace ObjectBridge

open Cache (Visit Visits Holding)

/-- A bound method is a member of its receiver's type. -/
def Held.Bound : Held → Prop
  | .value _ => True
  | .method receiver m => ∃ name, receiver.type.member? name = some (.method m)

/-- The wrapper that comes with an answer. -/
def Session.Answer.wrapper? : Session.Answer → Option Wrapper
  | .value v => v.object?
  | .attribute a => a.wrapper?
  | _ => none

namespace Session

/-- The references that a session accounts for: those in slots and those to singletons. -/
def refs (b : Bridge Engine) (s : Session) : List Wrapper :=
  s.slots.values.filterMap (·.wrapper?) ++ b.singletons.values.map (·.wrapper)

/-- The references with some more at hand, and the cache. -/
def holding (b : Bridge Engine) (more : List Wrapper) (s : Session) : Holding :=
  ⟨more ++ s.refs b,s.world.cache⟩

/-- What slots have is old or sound. -/
def Kept (s t : Session) : Prop :=
  ∀ (slot : String) (held : Held), t.slots[slot]? = some held →
    s.slots[slot]? = some held ∨ held.Bound

/-- A change that the engine has no part in, from some references at hand to others. -/
structure Shift (b : Bridge Engine) (named : Handle → TypeInfo → Prop) (owed : List Wrapper)
    (s : Session) (more : List Wrapper) (t : Session) : Prop where
  native : t.world.native = s.world.native
  visits : Visits named (s.holding b owed) (t.holding b more)
  kept : s.Kept t

/-- A change that begins with direct steps of the engine. -/
structure Passage (b : Bridge Engine) (l : Lattice) (options : Options) (s : Session)
    (more : List Wrapper) (t : Session) : Prop where
  native : ∃ history, s.world.native.Becomes history t.world.native
  visits : Visits (t.world.native.Names l options) (s.holding b []) (t.holding b more)
  kept : s.Kept t

/-- A change in which what is given is referred to at some moment. -/
structure Advance (b : Bridge Engine) (l : Lattice) (options : Options) (s : Session)
    (given : Option Wrapper) (t : Session) : Prop where
  native : ∃ history, s.world.native.Becomes history t.world.native
  visits : ∃ mid : Holding, Visits (t.world.native.Names l options) (s.holding b []) mid ∧
    (∀ w, given = some w → w ∈ mid.refs) ∧
    Visits (t.world.native.Names l options) mid (t.holding b [])
  kept : s.Kept t

/-- How an act ends: with the reference that it gives at hand, or with none. -/
def Gains (b : Bridge Engine) (l : Lattice) (options : Options) (s : Session)
    (gives : α → Option Wrapper) : EStateM.Result SessionError Session α → Prop
  | .ok a t => Passage b l options s (gives a).toList t
  | .error _ t => Passage b l options s [] t

/-- The same for an act that the engine has no part in. -/
def Shifts (b : Bridge Engine) (l : Lattice) (options : Options) (s : Session)
    (gives : α → Option Wrapper) : EStateM.Result SessionError Session α → Prop
  | .ok a t => Shift b (s.world.native.Names l options) [] s (gives a).toList t
  | .error _ t => Shift b (s.world.native.Names l options) [] s [] t

/-- How a step ends: what its answer comes with was handed out. -/
def Advances (b : Bridge Engine) (l : Lattice) (options : Options) (s : Session) :
    EStateM.Result SessionError Session Answer → Prop
  | .ok answer t => Advance b l options s answer.wrapper? t
  | .error _ t => Advance b l options s none t

variable {b : Bridge Engine} {l : Lattice} {options : Options} {s t u : Session}
  {named : Handle → TypeInfo → Prop} {owed more last : List Wrapper}

theorem Kept.refl (s : Session) : s.Kept s := fun _ _ => .inl

theorem Kept.trans (first : s.Kept t) (second : t.Kept u) : s.Kept u := by
  intro slot held found
  rcases second slot held found with before | bound
  · exact first slot held before
  · exact .inr bound

theorem Shift.trans (first : Shift b named owed s more t) (second : Shift b named more t last u) :
    Shift b named owed s last u :=
  ⟨second.native.trans first.native,first.visits.trans second.visits,first.kept.trans second.kept⟩

namespace Passage

theorem of_shift (shift : Shift b (s.world.native.Names l options) [] s more t) :
    Passage b l options s more t :=
  ⟨⟨[],shift.native ▸ .refl _⟩,shift.native ▸ shift.visits,shift.kept⟩

theorem still (b : Bridge Engine) (l : Lattice) (options : Options) (s : Session) :
    Passage b l options s [] s := of_shift ⟨rfl,.refl,.refl s⟩

theorem shift (first : Passage b l options s more t)
    (second : Shift b (t.world.native.Names l options) more t last u) :
    Passage b l options s last u :=
  ⟨second.native ▸ first.native,second.native ▸ first.visits.trans second.visits,
    first.kept.trans second.kept⟩

/-- What is at hand in between is handed out. -/
theorem advance {given : Option Wrapper} (first : Passage b l options s given.toList t)
    (second : Shift b (t.world.native.Names l options) given.toList t [] u) :
    Advance b l options s given u := by
  refine ⟨second.native ▸ first.native,⟨_,second.native ▸ first.visits,?_,
    second.native ▸ second.visits⟩,first.kept.trans second.kept⟩
  rintro w rfl
  exact List.mem_cons_self

theorem advance_none (passage : Passage b l options s [] t) : Advance b l options s none t :=
  ⟨passage.native,⟨_,passage.visits,nofun,.refl⟩,passage.kept⟩

end Passage

/-! Slots -/

theorem refs_erase (b : Bridge Engine) (s : Session) (slot : String) : (s.refs b).Perm
    ((s.slots[slot]?.bind (·.wrapper?)).toList ++
      refs b { s with slots := s.slots.erase slot }) := by
  have listed := (NameMap.values_perm s.slots slot).filterMap (·.wrapper?)
  unfold refs
  rw [← List.append_assoc]
  refine List.Perm.append_right _ (listed.trans ?_)
  rw [List.filterMap_append]
  cases s.slots[slot]? with
  | none => simp
  | some held => cases wrapper : held.wrapper? <;> simp [wrapper]

theorem refs_insert (b : Bridge Engine) (s : Session) (slot : String) (held : Held) :
    (refs b { s with slots := s.slots.insert slot held }).Perm
      (held.wrapper?.toList ++ refs b { s with slots := s.slots.erase slot }) := by
  have listed := (NameMap.values_insert_perm s.slots slot held).filterMap (·.wrapper?)
  unfold refs
  rw [← List.append_assoc]
  refine List.Perm.append_right _ (listed.trans ?_)
  cases wrapper : held.wrapper? <;> simp [wrapper]

theorem retain_shift (named : Handle → TypeInfo → Prop) (b : Bridge Engine) (s : Session)
    (w? : Option Wrapper) (held : ∀ w, w? = some w → w ∈ s.refs b) :
    ∃ t, retain w? s = .ok () t ∧ Shift b named [] s w?.toList t := by
  cases w? with
  | none => exact ⟨s,rfl,rfl,.refl,.refl s⟩
  | some w =>
    exact ⟨{ s with world := ⟨s.world.native,s.world.cache.retain w⟩ },rfl,rfl,
      .single (.retain (.inl (held w rfl))),.refl s⟩

theorem release_shift (named : Handle → TypeInfo → Prop) (b : Bridge Engine) (s : Session)
    (w? : Option Wrapper) :
    ∃ t, release w? s = .ok () t ∧ Shift b named w?.toList s [] t := by
  cases w? with
  | none => exact ⟨s,rfl,rfl,.refl,.refl s⟩
  | some w =>
    exact ⟨{ s with world := ⟨s.world.native,s.world.cache.release w⟩ },rfl,rfl,
      .single .release,.refl s⟩

/-- What is put into a slot is referred to from there; what was there is given back. -/
theorem put_shift (named : Handle → TypeInfo → Prop) (b : Bridge Engine) (s : Session)
    (slot : String) (held : Held) (bound : held.Bound) :
    ∃ t, put slot held s = .ok () t ∧ Shift b named held.wrapper?.toList s [] t := by
  obtain ⟨t,run,shift⟩ := release_shift named b { s with slots := s.slots.insert slot held }
    (s.slots[slot]?.bind (·.wrapper?))
  refine ⟨t,run,shift.native,?_,Kept.trans ?_ shift.kept⟩
  · refine .head (.reorder ?_) shift.visits
    exact ((refs_erase b s slot).append_left _).trans (List.perm_append_comm_assoc ..) |>.trans
      ((refs_insert b s slot held).symm.append_left _)
  · intro other known found
    rw [Std.ExtTreeMap.getElem?_insert] at found
    split at found
    · exact .inr (Option.some.inj found ▸ bound)
    · exact .inl found

theorem drop_shift (named : Handle → TypeInfo → Prop) (b : Bridge Engine) (s : Session)
    (slot : String) :
    ∃ t, drop slot s = .ok s.slots[slot]?.isSome t ∧ Shift b named [] s [] t := by
  obtain ⟨t,run,shift⟩ := release_shift named b { s with slots := s.slots.erase slot }
    (s.slots[slot]?.bind (·.wrapper?))
  refine ⟨t,?_,shift.native,?_,Kept.trans ?_ shift.kept⟩
  · have seen : (get : SessionM Session) s = .ok s s := rfl
    have changed (f : Session → Session) : (modify f : SessionM Unit) s = .ok () (f s) := rfl
    simp only [drop,bind,EStateM.bind,seen,changed,run]
    rfl
  · exact .head (.reorder (refs_erase b s slot)) shift.visits
  · intro other known found
    rw [Std.ExtTreeMap.getElem?_erase] at found
    split at found
    · cases found
    · exact .inl found

theorem keep_shift (named : Handle → TypeInfo → Prop) (b : Bridge Engine) (s : Session)
    (into : Option String) (held : Held) (bound : held.Bound) :
    ∃ t, keep into held s = .ok () t ∧ Shift b named held.wrapper?.toList s [] t := by
  cases into with
  | some slot => exact put_shift named b s slot held bound
  | none => exact release_shift named b s held.wrapper?

/-- What is read out of a slot is referred to from there. -/
theorem mem_refs (b : Bridge Engine) {slot : String} {held : Held} {w : Wrapper}
    (found : s.slots[slot]? = some held) (wrapper : held.wrapper? = some w) : w ∈ s.refs b :=
  List.mem_append_left _ (List.mem_filterMap.mpr ⟨held,NameMap.mem_values.mpr ⟨slot,found⟩,wrapper⟩)

theorem mem_refs_singleton (b : Bridge Engine) (s : Session) {name : String} {single : Singleton}
    (found : b.singletons[name]? = some single) : single.wrapper ∈ s.refs b :=
  List.mem_append_right _ (List.mem_map_of_mem (NameMap.mem_values.mpr ⟨name,found⟩))

theorem object_cases (b : Bridge Engine) (s : Session) (slot : String) :
    object slot s = .error .noSlot s ∨ ∃ w, object slot s = .ok w s ∧ w ∈ s.refs b := by
  unfold object
  cases found : s.object? slot with
  | none => exact .inl rfl
  | some w =>
    refine .inr ⟨w,rfl,?_⟩
    obtain ⟨v,value,object⟩ := Option.bind_eq_some_iff.mp found
    unfold value? at value
    split at value
    · rename_i held
      cases value
      exact mem_refs b held object
    · cases value

theorem value_cases (b : Bridge Engine) (s : Session) (o : Operand) :
    value o s = .error .noSlot s ∨
      ∃ v, value o s = .ok v s ∧ ∀ w, v.object? = some w → w ∈ s.refs b := by
  unfold value
  cases found : s.operand? o with
  | none => exact .inl rfl
  | some v =>
    refine .inr ⟨v,rfl,?_⟩
    intro w object
    cases o with
    | slot name =>
      simp only [operand?,value?] at found
      split at found
      · rename_i held
        cases found
        exact mem_refs b held object
      · cases found
    | _ =>
      cases found
      cases object

theorem values_cases (b : Bridge Engine) (s : Session) (args : List Operand) :
    args.mapM value s = .error .noSlot s ∨
      ∃ vs, args.mapM value s = .ok vs s ∧ ∀ w ∈ vs.filterMap (·.object?), w ∈ s.refs b := by
  induction args with
  | nil => exact .inr ⟨[],rfl,nofun⟩
  | cons o rest ih =>
    rw [List.mapM_cons]
    simp only [bind,EStateM.bind]
    rcases value_cases b s o with stop | ⟨v,read,held⟩
    · simp [stop]
    · rcases ih with stop | ⟨vs,all,others⟩
      · simp [read,stop]
      · refine .inr ⟨v :: vs,by simp [read,all,pure,EStateM.pure],?_⟩
        intro w member
        obtain ⟨u,mu,object⟩ := List.mem_filterMap.mp member
        rcases List.mem_cons.mp mu with rfl | mu
        · exact held w object
        · exact others w (List.mem_filterMap.mpr ⟨u,mu,object⟩)

theorem method_cases (b : Bridge Engine) (s : Session) (slot : String) :
    method slot s = .error .noSlot s ∨
      ∃ w m, method slot s = .ok (w,m) s ∧ w ∈ s.refs b := by
  unfold method
  split
  · rename_i receiver m held
    exact .inr ⟨receiver,m,rfl,mem_refs b held rfl⟩
  · exact .inl rfl

/-! Acts -/

namespace Gains

variable {gives : α → Option Wrapper} {result : EStateM.Result SessionError Session α}

theorem map {run : SessionM α} {gained : β → Option Wrapper} (f : α → β)
    (gains : Gains b l options s (fun a => gained (f a)) (run s)) :
    Gains b l options s gained ((run >>= fun a => pure (f a)) s) := by
  simp only [bind,EStateM.bind]
  cases ran : run s with
  | ok a t =>
    rw [ran] at gains
    exact gains
  | error e t =>
    rw [ran] at gains
    exact gains

theorem still {e : SessionError} : Gains b l options s gives (.error e s) :=
  Passage.still b l options s

end Gains

/-- A use of the bridge with the references of the session. -/
theorem ofBridge_gains {run : BridgeM Engine α} {gives : α → Option Wrapper}
    (concludes : Concludes l options (s.refs b) s.world gives (run s.world)) :
    Gains b l options s gives (SessionM.ofBridge run s) := by
  unfold SessionM.ofBridge
  cases ran : run s.world with
  | ok a world =>
    rw [ran] at concludes
    exact ⟨concludes.native,concludes.visits,.refl s⟩
  | error e world =>
    rw [ran] at concludes
    exact ⟨concludes.native,concludes.visits,.refl s⟩

theorem ofBridge_ok {run : BridgeM Engine α} {a : α}
    (ran : SessionM.ofBridge run s = .ok a t) : run s.world = .ok a t.world := by
  unfold SessionM.ofBridge at ran
  cases result : run s.world with
  | ok a world =>
    rw [result] at ran
    cases ran
    rfl
  | error e world => simp [result] at ran

theorem ofBridge_shifts {run : BridgeM Engine α} {gives : α → Option Wrapper}
    (quiet : Quietly l options (s.refs b) s.world gives (run s.world)) :
    Shifts b l options s gives (SessionM.ofBridge run s) := by
  unfold SessionM.ofBridge
  cases ran : run s.world with
  | ok a world =>
    rw [ran] at quiet
    exact ⟨quiet.1,quiet.2,.refl s⟩
  | error e world =>
    rw [ran] at quiet
    obtain rfl := quiet
    exact ⟨rfl,.refl,.refl s⟩

/-- An act of the second kind is one of the first, also after another one. -/
theorem Passage.gains {gives : α → Option Wrapper}
    {result : EStateM.Result SessionError Session α} (first : Passage b l options s [] t)
    (rest : Shifts b l options t gives result) : Gains b l options s gives result := by
  cases result with
  | ok a u => exact first.shift rest
  | error e u => exact first.shift rest

theorem ofBridge_quietly {run : BridgeM Engine α} {gives : α → Option Wrapper}
    (quiet : Quietly l options (s.refs b) s.world gives (run s.world)) :
    Gains b l options s gives (SessionM.ofBridge run s) :=
  (Passage.still b l options s).gains (ofBridge_shifts quiet)

/-- A lookup finds the live wrapper and refers to it, or finds none. -/
theorem lookup_cases (l : Lattice) (options : Options) (b : Bridge Engine) (s : Session)
    (h : Handle) : SessionM.ofBridge (b.lookup h) s = .ok none s ∨
      ∃ w t, SessionM.ofBridge (b.lookup h) s = .ok (some w) t ∧ Passage b l options s [w] t := by
  cases live : s.world.cache.live? h with
  | none =>
    left
    simp [SessionM.ofBridge,Context.lookup,BridgeM.cached,Cache.lookup,live]
  | some w =>
    refine .inr ⟨w,{ s with world := ⟨s.world.native,s.world.cache.retain w⟩ },?_,?_⟩
    · simp [SessionM.ofBridge,Context.lookup,BridgeM.cached,Cache.lookup,live]
    · exact .of_shift ⟨rfl,.single (.retain (.inr ⟨h,live⟩)),.refl s⟩

theorem singleton_gains (name : String) :
    Gains b l options s (·.object?) (produce b (.singleton name) s) := by
  simp only [produce]
  cases found : b.singletons[name]? with
  | none => exact Passage.still b l options s
  | some single =>
    have member := mem_refs_singleton b s found
    obtain ⟨t,run,shift⟩ := retain_shift (s.world.native.Names l options) b s
      (some single.wrapper) (fun w same => Option.some.inj same ▸ member)
    simp only [bind,EStateM.bind,run]
    exact Passage.of_shift shift

theorem copy_gains (operand : Operand) :
    Gains b l options s (·.object?) (produce b (.copy operand) s) := by
  simp only [produce,bind,EStateM.bind]
  rcases value_cases b s operand with stop | ⟨v,read,held⟩
  · rw [stop]
    exact .still
  · obtain ⟨t,run,shift⟩ := retain_shift (s.world.native.Names l options) b s v.object? held
    simp only [read,run]
    exact Passage.of_shift shift

section

variable (own : b.toContext = Engine.context l options)
include own

theorem call_gains (on name : String) (args : List Operand) :
    Gains b l options s (·.object?) (produce b (.call on name args) s) := by
  simp only [produce,bind,EStateM.bind]
  rcases object_cases b s on with stop | ⟨receiver,read,held⟩
  · rw [stop]
    exact .still
  · rw [read]
    dsimp only
    rcases values_cases b s args with stop | ⟨vs,all,others⟩
    · rw [stop]
      exact .still
    · rw [all,own]
      exact ofBridge_gains ((Use.call receiver name vs).concludes
        (List.forall_mem_cons.mpr ⟨held,others⟩) (fun v => some (.value v)) rfl)

theorem invoke_gains (on : String) (args : List Operand) :
    Gains b l options s (·.object?) (produce b (.invoke on args) s) := by
  simp only [produce,bind,EStateM.bind]
  rcases method_cases b s on with stop | ⟨receiver,m,read,held⟩
  · rw [stop]
    exact .still
  · rw [read]
    dsimp only
    rcases values_cases b s args with stop | ⟨vs,all,others⟩
    · rw [stop]
      exact .still
    · rw [all,own]
      exact ofBridge_gains ((Use.invoke receiver m vs).concludes
        (List.forall_mem_cons.mpr ⟨held,others⟩) (fun v => some (.value v)) rfl)

/-- Whatever its source, a value that is produced comes with a reference. -/
theorem produce_gains (source : Source) :
    Gains b l options s (·.object?) (produce b source s) := by
  cases source with
  | instantiate cls =>
    have created : Concludes l options (s.refs b) s.world some (b.instantiate cls s.world) :=
      own ▸ (Use.instantiate cls).concludes nofun (fun w => some (.value (.object w))) rfl
    exact Gains.map Value.object (ofBridge_gains created)
  | wrap h =>
    have wrapped := Engine.wrap_quietly l options h s.world (s.refs b)
    exact Gains.map Value.object (ofBridge_quietly (own ▸ wrapped))
  | lookup h =>
    simp only [produce,bind,EStateM.bind]
    rcases lookup_cases l options b s h with missing | ⟨w,t,found,passage⟩
    · rw [missing]
      exact Passage.still b l options s
    · rw [found]
      exact passage
  | singleton name => exact singleton_gains name
  | copy operand => exact copy_gains operand
  | call on name args => exact call_gains own on name args
  | invoke on args => exact invoke_gains own on args
  | receive raw coercion =>
    have received := ofBridge_quietly (b := b) (s := s)
      (Engine.receive_quietly l options coercion raw s.world (s.refs b))
    simp only [produce,bind,EStateM.bind,own]
    cases ran : SessionM.ofBridge ((Engine.context l options).receive coercion raw) s with
    | error e t =>
      rw [ran] at received
      exact received
    | ok result t =>
      rw [ran] at received
      cases result with
      | ok v => exact received
      | error m => exact received

/-- The wrap that comes in between fills its slot or fails. -/
theorem intervene_shift (h : Handle) (winner : String) : ∃ t, intervene b h winner s = .ok () t ∧
    Shift b (s.world.native.Names l options) [] s [] t := by
  have wrapped := ofBridge_shifts (Engine.wrap_quietly l options h s.world (s.refs b))
  unfold intervene
  rw [own]
  unfold SessionM.ofBridge at wrapped
  cases ran : (Engine.context l options).wrap h s.world with
  | error e world =>
    rw [ran] at wrapped
    exact ⟨_,rfl,wrapped⟩
  | ok w world =>
    rw [ran] at wrapped
    obtain ⟨t,run,shift⟩ := put_shift (s.world.native.Names l options) b { s with world } winner
      (.value (.object w)) trivial
    exact ⟨t,run,wrapped.trans shift⟩

theorem wrapRaced_gains (h : Handle) (winner : String) :
    Gains b l options s some (wrapRaced b h winner s) := by
  simp only [wrapRaced,bind,EStateM.bind]
  rcases lookup_cases l options b s h with missing | ⟨w,t,found,passage⟩
  · obtain ⟨t,run,shift⟩ := intervene_shift own h winner
    simp only [missing,EStateM.bind]
    rw [run]
    dsimp only
    rw [own]
    exact (Passage.of_shift shift).gains
      (ofBridge_shifts (Engine.enter_quietly l options h t.world (t.refs b)))
  · rw [found]
    exact passage

end

end Session
end ObjectBridge
