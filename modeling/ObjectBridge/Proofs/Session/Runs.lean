import ObjectBridge.Proofs.Crossing.Origin
import ObjectBridge.Proofs.Session.Steps
import Mathlib.Data.List.Induction

/-! Runs of a session. Along a run the references stay accounted for, whatever is forgotten or
destroyed, and every wrapper that is handed out stands for an object that was born in the history
of the engine. -/
namespace ObjectBridge.Session

open Cache (Visits Owned Holding)

/-- The session after the steps, whether they failed or not. -/
def afterAll (b : Bridge Engine) (s : Session) (steps : List Step) : Session :=
  steps.foldl (after b) s

/-- A run along with a history of its engine. What the engine does in a step is told by direct
steps, which may be any that come to the same. -/
inductive Run (b : Bridge Engine) (start : Session) :
    List Step → List Engine.Step → Session → Prop where
  | nil : Run b start [] [] start
  | snoc {steps : List Step} {history more : List Engine.Step} {s : Session} {step : Step} :
      Run b start steps history s → s.world.native.Becomes more (s.after b step).world.native →
      Run b start (steps ++ [step]) (history ++ more) (s.after b step)

/-- The allocation was made after the handle was last forgotten. -/
def Recent (b : Bridge Engine) (start : Session) (steps : List Step) (h : Handle) (n : Nat) :
    Prop :=
  ∀ part, part ++ [.forget h] <+: steps → (start.afterAll b part).world.cache.next ≤ n

/-- The wrapper was referred to after some of the steps, or came with the answer of one. -/
def HandedOut (b : Bridge Engine) (start : Session) (steps : List Step) (w : Wrapper) : Prop :=
  (∃ part, part <+: steps ∧ w ∈ (start.afterAll b part).refs b) ∨
  ∃ part step answer t, part ++ [step] <+: steps ∧
    run b step (start.afterAll b part) = .ok answer t ∧ answer.wrapper? = some w

variable {b : Bridge Engine} {db : Database} {options : Options} {e : Engine} {l : Lattice}
  {world : World Engine} {start s : Session} {steps : List Step} {step : Step}
  {history : List Engine.Step} {h : Handle} {n : Nat} {w : Wrapper}

theorem afterAll_snoc (b : Bridge Engine) (s : Session) (steps : List Step) (step : Step) :
    s.afterAll b (steps ++ [step]) = (s.afterAll b steps).after b step := by
  simp [afterAll]

theorem recent_snoc : Recent b start (steps ++ [step]) h n ↔
    Recent b start steps h n ∧
      (step = .forget h → (start.afterAll b steps).world.cache.next ≤ n) := by
  constructor
  · intro recent
    refine ⟨fun part early => recent part (early.trans (List.prefix_append ..)),?_⟩
    rintro rfl
    exact recent steps List.prefix_rfl
  · rintro ⟨recent,last⟩ part early
    rcases List.prefix_concat_iff.mp early with same | early
    · obtain ⟨rfl,single⟩ := List.append_inj' same rfl
      exact last (List.cons.inj single).1.symm
    · exact recent part early

/-- At first there are references to the singletons alone. -/
theorem initial_holding (b : Bridge Engine) (world : World Engine) :
    holding b [] { world } = ⟨b.singletons.values.map (·.wrapper),world.cache⟩ := by
  have nothing : (∅ : NameMap Held).values = [] := by simp [NameMap.values_eq]
  simp [holding,refs,nothing]

/-- What forgetting comes to. -/
theorem run_forget (b : Bridge Engine) (s : Session) (h : Handle) : run b (.forget h) s =
    .ok (.flag (s.world.cache.forget h).1)
      { s with world := ⟨s.world.native,(s.world.cache.forget h).2⟩ } := rfl

section

variable (founded : Founded db options e l b world)
include founded

/-- A step forgets a handle, or it is an advance. -/
theorem after_cases (s : Session) (step : Step) : (∃ h, step = .forget h) ∨
    (∀ h, step ≠ .forget h) ∧ ∃ given, Advance b l options s given (s.after b step) ∧
      ∀ answer t, run b step s = .ok answer t → given = answer.wrapper? := by
  by_cases forgets : ∃ h, step = .forget h
  · exact .inl forgets
  · have others := not_exists.mp forgets
    have outcome := run_advances (s := s) founded.context founded.globals step others
    refine .inr ⟨others,?_⟩
    unfold after
    cases ran : run b step s with
    | ok answer t =>
      rw [ran] at outcome
      refine ⟨answer.wrapper?,outcome,?_⟩
      intro other u same
      injection same with same
      rw [same]
    | error fault t =>
      rw [ran] at outcome
      refine ⟨none,outcome,?_⟩
      intro other u same
      injection same

/-- A step moves the engine by direct steps. -/
theorem after_becomes (s : Session) (step : Step) :
    ∃ more, s.world.native.Becomes more (s.after b step).world.native := by
  rcases after_cases founded s step with ⟨h,rfl⟩ | ⟨_,_,advance,_⟩
  · exact ⟨[],.refl s.world.native⟩
  · exact advance.native

/-- Every run has a history. -/
theorem exists_run (start : Session) (steps : List Step) :
    ∃ history, Run b start steps history (start.afterAll b steps) := by
  induction steps using List.reverseRecOn with
  | nil => exact ⟨[],.nil⟩
  | append_singleton steps step ih =>
    obtain ⟨history,run⟩ := ih
    obtain ⟨more,way⟩ := after_becomes founded (start.afterAll b steps) step
    rw [afterAll_snoc]
    exact ⟨history ++ more,.snoc run way⟩

/-- Along a run the cache is in step with the slots and the singletons. -/
theorem afterAll_owned (steps : List Step) : Owned (Recent b { world } steps)
    (holding b [] (afterAll b { world } steps)) := by
  induction steps using List.reverseRecOn with
  | nil =>
    have nothing : Owned (Recent b { world } []) ⟨[],{}⟩ := by
      refine ⟨.empty,nofun,by simp,?_⟩
      intro h n _ part early
      simp at early
    have begun := nothing.visits founded.visits
    rw [← initial_holding] at begun
    exact begun
  | append_singleton steps step ih =>
    rw [afterAll_snoc]
    rcases after_cases founded (afterAll b { world } steps) step with
      ⟨h,rfl⟩ | ⟨others,_,⟨_,⟨_,first,_,second⟩,_⟩,_⟩
    · refine (ih.forget h).congr fun g n => ?_
      simp only [recent_snoc,Step.forget.injEq,eq_comm (a := h)]
      rfl
    · refine ((ih.visits first).visits second).congr fun g n => ?_
      simp [recent_snoc,others g]

/-- The bound methods in slots are members of their receivers' types. -/
theorem afterAll_bound (steps : List Step) {slot : String} {held : Held}
    (found : (afterAll b { world } steps).slots[slot]? = some held) : held.Bound := by
  induction steps using List.reverseRecOn generalizing slot held with
  | nil => simp [afterAll] at found
  | append_singleton steps step ih =>
    rw [afterAll_snoc] at found
    rcases after_cases founded (afterAll b { world } steps) step with ⟨h,rfl⟩ | ⟨_,_,advance,_⟩
    · exact ih found
    · exact (advance.kept slot held found).elim ih id

/-- What is true of all wrappers that there are, and of those of names, is true after a step, also
of what comes with its answer. -/
theorem after_all {P : Wrapper → Prop} (s : Session) (step : Step) (all : (s.holding b []).All P)
    (new : ∀ n h type, (s.after b step).world.native.Names l options h type → P ⟨n,h,type⟩) :
    ((s.after b step).holding b []).All P ∧
      ∀ answer t w, run b step s = .ok answer t → answer.wrapper? = some w → P w := by
  rcases after_cases founded s step with ⟨h,rfl⟩ | ⟨_,_,⟨_,⟨mid,first,offered,second⟩,_⟩,handed⟩
  · refine ⟨all.forget h,?_⟩
    intro answer t w ran given
    rw [run_forget] at ran
    injection ran with same
    rw [← same] at given
    cases given
  · have middle := all.visits new first
    refine ⟨middle.visits new second,?_⟩
    intro answer t w ran wrapper
    exact middle.refs w (offered w ((handed answer t ran).trans wrapper))

end

/-! What wrappers stand for -/

/-- The wrapper stands for an object that was born, and its type is the one that the class of the
object is taken for. -/
def Genuine (l : Lattice) (options : Options) (births : List Engine.Birth) (w : Wrapper) : Prop :=
  ∃ cls, ⟨w.handle,cls⟩ ∈ births ∧ (Engine.context l options).resolve cls = .ok w.type

/-- What is handed out by the last step, or was before. -/
theorem HandedOut.before_or_last (out : HandedOut b start (steps ++ [step]) w) :
    HandedOut b start steps w ∨ w ∈ (start.afterAll b (steps ++ [step])).refs b ∨ ∃ answer t,
      run b step (start.afterAll b steps) = .ok answer t ∧ answer.wrapper? = some w := by
  rcases out with ⟨part,early,member⟩ | ⟨part,last,answer,t,early,ran,given⟩
  · rcases List.prefix_concat_iff.mp early with rfl | early
    · exact .inr (.inl member)
    · exact .inl (.inl ⟨part,early,member⟩)
  · rcases List.prefix_concat_iff.mp early with same | early
    · obtain ⟨rfl,single⟩ := List.append_inj' same rfl
      obtain ⟨rfl,_⟩ := List.cons.inj single
      exact .inr (.inr ⟨answer,t,ran,given⟩)
    · exact .inl (.inr ⟨part,last,answer,t,early,ran,given⟩)

/-- Genuine wrappers have types of the lattice, also where unknown classes count as the root. -/
theorem Genuine.within {births : List Engine.Birth} (made : Lattice.Synthesized db options l)
    (genuine : Genuine l options births w) : w.Within l := by
  obtain ⟨_,_,resolved⟩ := genuine
  exact Context.resolve_within made resolved

theorem Genuine.mono {births more : List Engine.Birth} (genuine : Genuine l options births w)
    (within : ∀ birth ∈ births, birth ∈ more) : Genuine l options more w := by
  obtain ⟨cls,born,resolved⟩ := genuine
  exact ⟨cls,within _ born,resolved⟩

theorem Run.state_eq (run : Run b start steps history s) : s = start.afterAll b steps := by
  induction run with
  | nil => rfl
  | snoc _ _ ih => rw [afterAll_snoc,← ih]

/-- What the owner of the engine does to it is the history. -/
theorem Run.ofEngine (b : Bridge Engine) (start : Session) (steps : List Engine.Step)
    (direct : ∀ step ∈ steps, step.IsDirect) :
    Run b start (steps.map .engine) steps (start.afterAll b (steps.map .engine)) := by
  induction steps using List.reverseRecOn with
  | nil => exact .nil
  | append_singleton steps step ih =>
    obtain ⟨early,last⟩ := List.forall_mem_append.mp direct
    have way := Engine.Becomes.single (e := (start.afterAll b (steps.map .engine)).world.native)
      (last step List.mem_cons_self)
    have same (s : Session) :
        (s.after b (.engine step)).world.native = s.world.native.after step := by
      simp only [after,Session.run,SessionM.ofEngine,bind,EStateM.bind,Engine.after]
      cases Engine.run step s.world.native <;> rfl
    rw [← same] at way
    rw [List.map_append,List.map_singleton,afterAll_snoc]
    exact (ih early).snoc way

/-- The engine of a run has the history of the run. -/
theorem Run.becomes (run : Run b start steps history s) :
    start.world.native.Becomes history s.world.native := by
  induction run with
  | nil => exact .refl _
  | snoc _ way ih => exact ih.trans way

section

variable (founded : Founded db options e l b world)
include founded

/-- The births of the whole history: how the engine came about before the bridge, and the run. -/
theorem Run.chronicle {past : List Engine.Step} (begun : ({} : Engine).Becomes past e)
    (run : Run b { world } steps history s) :
    Engine.Chronicle (({} : Engine).births (past ++ history)) s.world.native := by
  have whole := begun.trans (founded.native ▸ run.becomes)
  have told := Engine.chronicle_empty.extend whole.direct
  rwa [whole.result,List.append_nil] at told

/-- Everything that the session refers to or has in its cache is genuine, and so is whatever was
handed out. -/
theorem Run.genuine {past : List Engine.Step} (begun : ({} : Engine).Becomes past e)
    (run : Run b { world } steps history s) :
    (s.holding b []).All (Genuine l options (({} : Engine).births (past ++ history))) ∧
      ∀ w, HandedOut b { world } steps w →
        Genuine l options (({} : Engine).births (past ++ history)) w := by
  have named {t : Session} {later : List Engine.Step} {more : List Step}
      (run : Run b { world } more later t) (n : Nat) (h : Handle) (type : TypeInfo)
      (names : t.world.native.Names l options h type) :
      Genuine l options (({} : Engine).births (past ++ later)) ⟨n,h,type⟩ := by
    obtain ⟨o,there,resolved⟩ := names
    exact ⟨o.cls,(run.chronicle founded begun).known h o there,resolved⟩
  induction run with
  | nil =>
    have nothing : Holding.All (Genuine l options (({} : Engine).births (past ++ []))) ⟨[],{}⟩ :=
      ⟨nofun,by simp⟩
    have all := nothing.visits (fun n h type names => named .nil n h type
      (founded.native ▸ names)) founded.visits
    rw [← initial_holding] at all
    refine ⟨all,?_⟩
    rintro w (⟨part,early,member⟩ | ⟨part,step,_,_,early,_⟩)
    · obtain rfl := List.prefix_nil.mp early
      exact all.refs w member
    · simp at early
  | @snoc steps history more s step run way ih =>
    have later : ∀ birth ∈ ({} : Engine).births (past ++ history),
        birth ∈ ({} : Engine).births (past ++ (history ++ more)) := by
      intro birth born
      rw [← List.append_assoc,Engine.births_append]
      exact List.mem_append_right _ born
    obtain ⟨before,out⟩ := ih
    obtain ⟨all,answered⟩ := after_all founded s step
      (before.imp fun w genuine => genuine.mono later) (named (run.snoc way))
    refine ⟨all,?_⟩
    intro w handedOut
    rcases handedOut.before_or_last with early | member | ⟨answer,t,ran,given⟩
    · exact (out w early).mono later
    · rw [afterAll_snoc,← run.state_eq] at member
      exact all.refs w member
    · rw [← run.state_eq] at ran
      exact answered answer t w ran given

end

end ObjectBridge.Session
