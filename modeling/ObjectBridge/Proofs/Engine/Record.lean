import ObjectBridge.Engine.Step

/-! Records of an engine. Whatever the body of a method does comes to direct steps, by which
objects are created, destroyed, read and written. A run over primitives that note these steps ends
as the run itself does, and the steps in the record, taken one by one, lead to the same engine. -/
namespace ObjectBridge.Engine

/-- The state after a run, whether it was refused or not. -/
def left (run : ChannelM σ α) (s : σ) : σ :=
  match run s with
  | .ok _ t => t
  | .error _ t => t

/-- The step runs no method body. -/
def Step.IsDirect : Step → Prop
  | .call .. => False
  | _ => True

/-- Direct steps lead from one state to the other. -/
structure Becomes (e : Engine) (history : List Step) (d : Engine) : Prop where
  direct : ∀ step ∈ history, step.IsDirect
  result : history.foldl after e = d

/-- The primitives of an engine with a record of the steps that they are, newest first. -/
def recorded : Primitives (Engine × List Step) where
  classNameOf h := Channel.noted (.classNameOf h) (classNameOf h)
  field h name := Channel.noted (.field h name) (field h name)
  setField h name value := Channel.noted (.setField h name value) (setField h name value)
  create cls := Channel.noted (.create cls) (create cls)
  destroy h := Channel.noted (.destroy h) (destroy h)
  findMethod? cls method := do return (← get).1.findMethod? cls method

/-- Take a step on an engine with a record. A call goes into the record by what it comes to. -/
def retrace (s : Engine × List Step) : Step → Engine × List Step
  | .call h method args => left (recorded.call h method args) s
  | step => (s.1.after step, step :: s.2)

/-- The direct steps that steps on a new engine come to, in order. -/
def trace (steps : List Step) : List Step := (steps.foldl retrace ({}, [])).2.reverse

variable {e d : Engine} {step : Step} {history later : List Step} {h this : Handle}
  {args : List Variant}

namespace Becomes

theorem refl (e : Engine) : e.Becomes [] e := ⟨nofun,rfl⟩

theorem single (direct : step.IsDirect) : e.Becomes [step] (e.after step) :=
  ⟨by simpa using direct,rfl⟩

theorem trans {c : Engine} (first : e.Becomes history d) (second : d.Becomes later c) :
    e.Becomes (history ++ later) c := by
  refine ⟨?_,by rw [List.foldl_append,first.result,second.result]⟩
  intro step member
  rcases List.mem_append.mp member with early | late
  · exact first.direct step early
  · exact second.direct step late

end Becomes

theorem after_eq (e : Engine) (step : Step) : e.after step = left (Engine.run step) e := by
  unfold after left
  cases Engine.run step e <;> rfl

/-- What is made of an answer does not matter for the engine. -/
theorem left_map (run : EngineM α) (f : α → β) (e : Engine) :
    left (run >>= fun a => pure (f a)) e = left run e := by
  simp only [left,bind,EStateM.bind]
  cases run e <;> rfl

/-- A step that passes on the answer of a run does no more than the run. -/
theorem after_run {run : EngineM α} (answer : α → Answer)
    (same : Engine.run step = run >>= fun a => pure (answer a)) (e : Engine) :
    e.after step = left run e := by
  rw [after_eq,same,left_map]

/-! Runs with a record -/

/-- The outcome of a run, with a record put to its state. -/
def outcome (log : List Step) :
    EStateM.Result ε Engine α → EStateM.Result ε (Engine × List Step) α
  | .ok a d => .ok a (d, log)
  | .error fault d => .error fault (d, log)

theorem left_outcome {run : ChannelM Engine α} {told : ChannelM (Engine × List Step) α}
    {log more : List Step} (same : told (e, log) = outcome more (run e)) :
    left told (e, log) = (left run e, more) := by
  rw [left,left,same]
  cases run e <;> rfl

/-- Recorded or not, the run ends alike, and the steps that are noted are direct and lead where
the run does. -/
def Tells (run : EngineM α) (told : ChannelM (Engine × List Step) α) : Prop :=
  ∀ e log, ∃ history, e.Becomes history (left run e) ∧
    told (e, log) = outcome (history.reverse ++ log) (run e)

namespace Tells

variable {run : EngineM α} {told : ChannelM (Engine × List Step) α}

theorem pure (a : α) : Tells (pure a) (pure a) := fun e _ => ⟨[],.refl e,rfl⟩

theorem throw (fault : ChannelError) : Tells (throw fault : EngineM α) (throw fault) :=
  fun e _ => ⟨[],.refl e,rfl⟩

theorem except (r : Except ChannelError α) : Tells (except r) (except r) := by
  cases r with
  | ok a => exact .pure a
  | error fault => exact .throw fault

theorem asObject (v : Variant) : Tells (asObject v) (asObject v) := by
  cases v with
  | object h => exact .pure h
  | _ => exact .throw _

theorem noted (answer : α → Answer) (direct : step.IsDirect)
    (same : Engine.run step = run >>= fun a => Pure.pure (answer a)) :
    Tells run (Channel.noted step run) := by
  intro e log
  refine ⟨[step],after_run answer same e ▸ .single direct,?_⟩
  simp only [Channel.noted]
  cases run e <;> rfl

theorem bind {next : α → EngineM β} {more : α → ChannelM (Engine × List Step) β}
    (first : Tells run told) (second : ∀ a, Tells (next a) (more a)) :
    Tells (run >>= next) (told >>= more) := by
  intro e log
  obtain ⟨history,way,same⟩ := first e log
  simp only [left,Bind.bind,EStateM.bind,same] at way ⊢
  cases ran : run e with
  | error fault d =>
    rw [ran] at way
    exact ⟨history,way,rfl⟩
  | ok a d =>
    rw [ran] at way
    obtain ⟨later,rest,same⟩ := second a d (history.reverse ++ log)
    exact ⟨history ++ later,way.trans rest,by simpa [outcome] using same⟩

/-- A last step that passes an answer on notes nothing. -/
theorem map (first : Tells run told) (f : α → β) :
    Tells (run >>= fun a => Pure.pure (f a)) (told >>= fun a => Pure.pure (f a)) :=
  first.bind fun a => .pure (f a)

end Tells

theorem classNameOf_tells (h : Handle) : Tells (classNameOf h) (recorded.classNameOf h) :=
  .noted .text trivial rfl

theorem field_tells (h : Handle) (name : String) : Tells (field h name) (recorded.field h name) :=
  .noted .value trivial rfl

theorem setField_tells (h : Handle) (name : String) (value : Variant) :
    Tells (setField h name value) (recorded.setField h name value) :=
  .noted (fun _ => .done) trivial rfl

theorem create_tells (cls : String) : Tells (create cls) (recorded.create cls) :=
  .noted .handle trivial rfl

theorem destroy_tells (h : Handle) : Tells (destroy h) (recorded.destroy h) :=
  .noted .flag trivial rfl

theorem accessField_tells (cls : String) (h : Handle) (method : String) (args : List Variant) :
    Tells (primitives.accessField cls h method args)
      (recorded.accessField cls h method args) := by
  unfold Primitives.accessField
  split
  · exact field_tells h _
  · exact (setField_tells h _ _).map _
  · exact .throw _

section

variable {back : Call} {told : CallM (Engine × List Step)}

mutual

/-- A body is told by its parts, as long as the calls that it makes are. -/
theorem eval_tells (calls : ∀ h method args, Tells (back h method args) (told h method args)) :
    ∀ body : Script, Tells (primitives.eval back this args body) (recorded.eval told this args body)
  | .const v => .pure v
  | .arg _ _ => .except _
  | .argCount => .pure _
  | .receiver => .pure _
  | .receiverId => .pure _
  | .field name on =>
    (eval_tells calls on).bind fun v => (Tells.asObject v).bind fun h => field_tells h name
  | .className on =>
    (eval_tells calls on).bind fun v => (Tells.asObject v).bind fun h =>
      (classNameOf_tells h).map _
  | .setField name value on =>
    (eval_tells calls value).bind fun v => (eval_tells calls on).bind fun target =>
      (Tells.asObject target).bind fun h => (setField_tells h name v).map _
  | .increment name _ =>
    (field_tells this name).bind fun _ => (setField_tells this name _).map _
  | .truthy value => (eval_tells calls value).map _
  | .create cls => (create_tells cls).map _
  | .destroy on =>
    (eval_tells calls on).bind fun v => (Tells.asObject v).bind fun h => (destroy_tells h).map _
  | .call method params on =>
    (evalAll_tells calls params).bind fun vs => (eval_tells calls on).bind fun v =>
      (Tells.asObject v).bind fun h => calls h method vs
  | .fail _ => .throw _
  | .sequence steps => evalLast_tells calls .nil steps

theorem evalAll_tells (calls : ∀ h method args, Tells (back h method args) (told h method args)) :
    ∀ bodies : List Script,
      Tells (primitives.evalAll back this args bodies) (recorded.evalAll told this args bodies)
  | [] => .pure _
  | body :: rest => (eval_tells calls body).bind fun _ => (evalAll_tells calls rest).map _

theorem evalLast_tells (calls : ∀ h method args, Tells (back h method args) (told h method args))
    (last : Variant) : ∀ bodies : List Script,
      Tells (primitives.evalLast back this args last bodies)
        (recorded.evalLast told this args last bodies)
  | [] => .pure _
  | body :: rest => (eval_tells calls body).bind fun v => evalLast_tells calls v rest

end

theorem dispatch_tells (calls : ∀ h method args, Tells (back h method args) (told h method args))
    (h : Handle) (method : String) (args : List Variant) :
    Tells (primitives.dispatch back h method args) (recorded.dispatch told h method args) := by
  refine (classNameOf_tells h).bind fun cls => .bind (fun e _ => ⟨[],.refl e,rfl⟩) fun body? => ?_
  cases body? with
  | some body => exact eval_tells calls body
  | none => exact accessField_tells cls h method args

end

theorem callWithin_tells (depth : Nat) : ∀ h method args,
    Tells (primitives.callWithin depth h method args)
      (recorded.callWithin depth h method args) := by
  induction depth with
  | zero => exact fun _ _ _ => .throw _
  | succ depth ih => exact dispatch_tells ih

theorem call_tells (h : Handle) (method : String) (args : List Variant) :
    Tells (call h method args) (recorded.call h method args) := callWithin_tells callDepth h method args

/-! Runs of steps -/

theorem call_stepwise (h : Handle) (method : String) (args : List Variant) (e : Engine) :
    ∃ history, e.Becomes history (left (call h method args) e) := by
  obtain ⟨history,way,_⟩ := call_tells h method args e []
  exact ⟨history,way⟩

theorem instantiate_stepwise (cls : String) (e : Engine) :
    ∃ history, e.Becomes history (left (instantiate cls) e) := by
  have same : e.after (.instantiate cls) = left (instantiate cls) e := after_run .handle rfl e
  exact ⟨[.instantiate cls],same ▸ .single trivial⟩

/-- A step with a record adds the direct steps that it comes to. -/
theorem retrace_eq (e : Engine) (log : List Step) (step : Step) :
    ∃ history, e.Becomes history (e.after step) ∧
      retrace (e, log) step = (e.after step, history.reverse ++ log) := by
  cases step with
  | call h method args =>
    obtain ⟨history,way,same⟩ := call_tells h method args e log
    rw [after_run .value rfl e]
    exact ⟨history,way,left_outcome same⟩
  | _ => exact ⟨_,.single trivial,rfl⟩

/-- A step of any kind comes to direct steps. -/
theorem exists_becomes (e : Engine) (step : Step) :
    ∃ history, e.Becomes history (e.after step) := by
  obtain ⟨history,way,_⟩ := retrace_eq e [] step
  exact ⟨history,way⟩

theorem foldl_retrace_eq (steps : List Step) (e : Engine) (log : List Step) :
    ∃ history, e.Becomes history (steps.foldl after e) ∧
      steps.foldl retrace (e, log) = (steps.foldl after e, history.reverse ++ log) := by
  induction steps generalizing e log with
  | nil => exact ⟨[],.refl e,rfl⟩
  | cons step steps ih =>
    obtain ⟨first,way,same⟩ := retrace_eq e log step
    obtain ⟨rest,later,ends⟩ := ih (e.after step) (first.reverse ++ log)
    refine ⟨first ++ rest,way.trans later,?_⟩
    rw [List.foldl_cons,same,ends]
    simp

/-- The trace of a run leads where the run does. -/
theorem trace_becomes (steps : List Step) :
    ({} : Engine).Becomes (trace steps) (ofHistory steps) := by
  obtain ⟨history,way,same⟩ := foldl_retrace_eq steps {} []
  rwa [trace,same,List.append_nil,List.reverse_reverse]

/-- Direct steps are their own trace. -/
theorem trace_of_direct (direct : ∀ step ∈ history, step.IsDirect) : trace history = history := by
  have noted (e : Engine) (log : List Step) :
      (history.foldl retrace (e, log)).2 = history.reverse ++ log := by
    induction history generalizing e log with
    | nil => rfl
    | cons step history ih =>
      obtain ⟨first,rest⟩ := List.forall_mem_cons.mp direct
      have taken : retrace (e, log) step = (e.after step, step :: log) := by
        cases step with
        | call => exact first.elim
        | _ => rfl
      rw [List.foldl_cons,taken,ih rest]
      simp
  rw [trace,noted,List.append_nil,List.reverse_reverse]

end ObjectBridge.Engine
