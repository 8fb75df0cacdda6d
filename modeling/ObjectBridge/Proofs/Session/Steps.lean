import ObjectBridge.Proofs.Session.Turns

/-! Steps of a session. Whatever a client does, but to forget a handle, moves the engine and then
visits the cache; what the answer comes with was referred to at some moment of it. -/
namespace ObjectBridge.Session

variable {b : Bridge Engine} {l : Lattice} {options : Options} {s t : Session}

/-- A value that is produced is handed out and then kept or given back. -/
theorem keepValue_advance {v : Value} (passage : Passage b l options s v.object?.toList t)
    (into : Option String) :
    ∃ u, keep into (.value v) t = .ok () u ∧ Advance b l options s v.object? u := by
  obtain ⟨u,run,shift⟩ := keep_shift (t.world.native.Names l options) b t into (.value v) trivial
  exact ⟨u,run,passage.advance shift⟩

theorem type_cases (b : Bridge Engine) (s : Session) (cls : String) :
    type b cls s = .error .noType s ∨ ∃ t, type b cls s = .ok t s := by
  unfold type
  cases b.lattice.get? cls with
  | none => exact .inl rfl
  | some t => exact .inr ⟨t,rfl⟩

theorem engine_advances (step : Engine.Step) :
    Advances b l options s (run b (.engine step) s) := by
  have way := Engine.exists_becomes s.world.native step
  rw [Engine.after_eq,Engine.left] at way
  simp only [run,SessionM.ofEngine,bind,EStateM.bind]
  cases ran : Engine.run step s.world.native with
  | ok answer native =>
    rw [ran] at way
    exact Passage.advance_none ⟨way,.refl,.refl s⟩
  | error e native =>
    rw [ran] at way
    exact Passage.advance_none ⟨way,.refl,.refl s⟩

section

variable (own : b.toContext = Engine.context l options)
include own

theorem produce_advances (source : Source) (into : Option String) :
    Advances b l options s (run b (.produce source into) s) := by
  have gains := produce_gains (s := s) own source
  simp only [run,bind,EStateM.bind]
  cases ran : produce b source s with
  | error e t =>
    rw [ran] at gains
    exact gains.advance_none
  | ok v t =>
    rw [ran] at gains
    obtain ⟨u,kept,advance⟩ := keepValue_advance gains into
    simp only [kept]
    exact advance

theorem wrapRaced_advances (h : Handle) (winner : String) (into : Option String) :
    Advances b l options s (run b (.wrapRaced h winner into) s) := by
  have gains := wrapRaced_gains (s := s) own h winner
  simp only [run,bind,EStateM.bind]
  cases ran : wrapRaced b h winner s with
  | error e t =>
    rw [ran] at gains
    exact gains.advance_none
  | ok w t =>
    rw [ran] at gains
    obtain ⟨u,kept,advance⟩ := keepValue_advance (v := .object w) gains into
    simp only [kept]
    exact advance

theorem setAttribute_advances (on name : String) (operand : Operand) :
    Advances b l options s (run b (.setAttribute on name operand) s) := by
  simp only [run,bind,EStateM.bind]
  rcases object_cases b s on with stop | ⟨receiver,read,held⟩
  · rw [stop]
    exact (Passage.still b l options s).advance_none
  · rw [read]
    dsimp only
    rcases value_cases b s operand with stop | ⟨v,given,others⟩
    · rw [stop]
      exact (Passage.still b l options s).advance_none
    · have concludes : Concludes l options (s.refs b) s.world (fun _ => none)
          ((Engine.context l options).setAttribute receiver name v s.world) :=
        (Use.write receiver name v).concludes
          (List.forall_mem_cons.mpr ⟨held,fun w m => others w (Option.mem_toList.mp m)⟩)
          (fun _ => none) rfl
      have gains := ofBridge_gains concludes
      rw [given,own]
      dsimp only
      cases ran : SessionM.ofBridge ((Engine.context l options).setAttribute receiver name v) s with
      | error e t =>
        rw [ran] at gains
        exact gains.advance_none
      | ok a t =>
        rw [ran] at gains
        exact gains.advance_none

theorem getAttribute_advances (on name : String) (into : Option String) :
    Advances b l options s (run b (.getAttribute on name into) s) := by
  simp only [run,bind,EStateM.bind]
  rcases object_cases b s on with stop | ⟨receiver,read,held⟩
  · rw [stop]
    exact (Passage.still b l options s).advance_none
  · have concludes : Concludes l options (s.refs b) s.world Attribute.wrapper?
        ((Engine.context l options).getAttribute receiver name s.world) :=
      (Use.read receiver name).concludes (by simpa [Use.wrappers] using held) some rfl
    have gains := ofBridge_gains concludes
    rw [read,own]
    dsimp only
    cases ran : SessionM.ofBridge ((Engine.context l options).getAttribute receiver name) s with
    | error e t =>
      rw [ran] at gains
      exact gains.advance_none
    | ok a t =>
      rw [ran] at gains
      dsimp only
      cases a with
      | value v =>
        obtain ⟨u,kept,advance⟩ := keepValue_advance gains into
        simp only [keepAttribute,kept]
        exact advance
      | signal name => exact gains.advance_none
      | method receiver m =>
        have bound : (Held.method receiver m).Bound :=
          ⟨name,Context.getAttribute_bound (ofBridge_ok ran)⟩
        obtain ⟨u,kept,shift⟩ := keep_shift (t.world.native.Names l options) b t into
          (.method receiver m) bound
        simp only [keepAttribute,kept]
        exact gains.advance shift

omit own in
theorem globalValue_advances {constants : NameMap Int64}
    (globals : b.globals = Namespace.ofParts l b.singletons constants) (name : String)
    (into : Option String) : Advances b l options s (run b (.globalValue name into) s) := by
  simp only [run]
  rw [globals]
  cases named : ((Namespace.ofParts l b.singletons constants)[name]? : Option Binding).bind
      (·.value?) with
  | none => exact (Passage.still b l options s).advance_none
  | some v =>
    have held (w : Wrapper) (object : v.object? = some w) : w ∈ s.refs b := by
      obtain ⟨single,found,rfl⟩ := Namespace.object_ofParts named object
      exact mem_refs_singleton b s found
    obtain ⟨t,retained,shift⟩ := retain_shift (s.world.native.Names l options) b s v.object? held
    obtain ⟨u,kept,advance⟩ := keepValue_advance (.of_shift shift) into
    simp only [bind,EStateM.bind,retained,kept]
    exact advance

/-- Whatever a client does, but to forget a handle, is an advance. -/
theorem run_advances {constants : NameMap Int64}
    (globals : b.globals = Namespace.ofParts l b.singletons constants) (step : Step)
    (kept : ∀ h, step ≠ .forget h) : Advances b l options s (run b step s) := by
  have still := (Passage.still b l options s).advance_none
  cases step with
  | engine step => exact engine_advances step
  | produce source into => exact produce_advances own source into
  | wrapRaced h winner into => exact wrapRaced_advances own h winner into
  | globalValue name into => exact globalValue_advances globals name into
  | getAttribute on name into => exact getAttribute_advances own on name into
  | setAttribute on name operand => exact setAttribute_advances own on name operand
  | getClassMember cls name =>
    simp only [run,bind,EStateM.bind]
    rcases type_cases b s cls with stop | ⟨t,found⟩
    · rw [stop]
      exact still
    · rw [found]
      dsimp only
      cases t.member name <;> exact still
  | setClassMember cls name operand =>
    simp only [run,bind,EStateM.bind]
    rcases type_cases b s cls with stop | ⟨t,found⟩
    · rw [stop]
      exact still
    · rw [found]
      dsimp only
      rcases value_cases b s operand with stop | ⟨v,read,_⟩
      · rw [stop]
        exact still
      · rw [read]
        exact still
  | setGlobal name operand =>
    simp only [run,bind,EStateM.bind]
    rcases value_cases b s operand with stop | ⟨v,read,_⟩
    · rw [stop]
      exact still
    · rw [read]
      exact still
  | isInstance operand cls =>
    simp only [run,bind,EStateM.bind]
    rcases value_cases b s operand with stop | ⟨v,read,_⟩
    · rw [stop]
      exact still
    · rw [read]
      exact still
  | drop slot =>
    obtain ⟨t,dropped,shift⟩ := drop_shift (s.world.native.Names l options) b s slot
    simp only [run,bind,EStateM.bind,dropped]
    exact (Passage.of_shift shift).advance_none
  | forget h => exact absurd rfl (kept h)
  | purge =>
    have shift : Shift b (s.world.native.Names l options) [] s []
        { s with world := ⟨s.world.native,s.world.cache.purge.2⟩ } :=
      ⟨rfl,.single .purge,.refl s⟩
    exact (Passage.of_shift shift).advance_none

end

end ObjectBridge.Session
